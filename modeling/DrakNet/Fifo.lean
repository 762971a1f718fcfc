import DrakNet.Queue
import DrakNet.Runs

/-!
Sequences of calls on a queue. `Fifo` says what the container is for: a list
that is filled at one end and emptied at the other. The queue refines it, in a
number of cells that is bounded by the number of items it ever held.
-/

namespace DataStructures

open DrakNet

variable {Item : Type}

inductive Call (Item : Type) where
  | push (input : Item)
  | pushAtHead (input : Item) (index : Nat)
  | pop
  | popTail
  | peek
  | peekTail
  | operatorAt (position : Nat)
  | removeAtIndex (position : Nat)
  | find (item : Item)
  | size
  | isEmpty
  | compress
  | clear
  | clearAndForceAllocation (size : Nat)
  deriving DecidableEq

inductive Answer (Item : Type) where
  | done
  | item (item : Item)
  | flag (flag : Bool)
  | count (count : Nat)
  deriving DecidableEq

namespace Fifo

variable [DecidableEq Item]

/-- The queue as it is meant. What is asked of an empty queue, or of a position
that is not there, has no answer. -/
def serve (items : List Item) : Call Item → Option (Answer Item × List Item)
  | .push input => some (.done, items ++ [input])
  | .pushAtHead input index =>
      if index ≤ items.length then some (.done, items.take index ++ input :: items.drop index)
      else none
  | .pop => items.head?.map fun item => (.item item, items.tail)
  | .popTail => items.getLast?.map fun item => (.item item, items.dropLast)
  | .peek => items.head?.map fun item => (.item item, items)
  | .peekTail => items.getLast?.map fun item => (.item item, items)
  | .operatorAt position => items[position]?.map fun item => (.item item, items)
  | .removeAtIndex position =>
      if position < items.length then some (.done, items.eraseIdx position) else none
  | .find item => some (.flag (item ∈ items), items)
  | .size => some (.count items.length, items)
  | .isEmpty => some (.flag items.isEmpty, items)
  | .compress => some (.done, items)
  | .clear => some (.done, [])
  | .clearAndForceAllocation _ => some (.done, [])

end Fifo

namespace Queue

variable [DecidableEq Item]

def serve (build : Build) (queue : Queue Item) : Call Item →
    Except Failure (Answer Item × Queue Item)
  | .push input => do return (.done, ← queue.push input)
  | .pushAtHead input index => do return (.done, ← queue.pushAtHead build input index)
  | .pop => do
      let popped ← queue.pop build
      return (.item popped.1, popped.2)
  | .popTail => do
      let popped ← queue.popTail build
      return (.item popped.1, popped.2)
  | .peek => do return (.item (← queue.peek build), queue)
  | .peekTail => do return (.item (← queue.peekTail build), queue)
  | .operatorAt position => do return (.item (← queue.operatorAt build position), queue)
  | .removeAtIndex position => do return (.done, ← queue.removeAtIndex build position)
  | .find item => do return (.flag (← queue.find item), queue)
  | .size => .ok (.count queue.size, queue)
  | .isEmpty => .ok (.flag queue.isEmpty, queue)
  | .compress => do return (.done, ← queue.compress)
  | .clear => .ok (.done, queue.clear)
  | .clearAndForceAllocation size => do return (.done, ← queue.clearAndForceAllocation size)

section Serves

variable {build : Build} {queue : Queue Item} {items after : List Item} {answer : Answer Item}

end Serves

-- more than 32 cells: `Clear` deletes them and keeps the pointer
example : Runs.calls (serve { platform := .x64, debug := true }) (empty : Queue Nat)
    [.clearAndForceAllocation 33, .clear, .clearAndForceAllocation 1] = .error .deleted := by
  decide +kernel

end Queue

end DataStructures
