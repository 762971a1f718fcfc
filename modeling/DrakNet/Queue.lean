import DrakNet.CircularArray
import DrakNet.RakNet

/-!
`DataStructures::Queue`, the container in which RakPeer keeps the packets that
`Receive` hands out. It is modelled with every call of DS_Queue.h but the copy
operations and `PopDeref`. `Represents` relates a queue to the items it holds;
each call has a lemma that says what becomes of them.

Sizes and indices are natural numbers where the source has `unsigned int`, and
`int` in `ClearAndForceAllocation`: allocations are to stay below 2^31. A read
outside the array, or of a cell that was never written, is a failure in either
build.
-/

namespace DataStructures

open CircularArray CString DrakNet

variable {Item : Type}

inductive Failure where
  | fault (fault : Fault)
  -- a loop has not ended within the passes that are to be enough for it
  | endless
  -- `OP_DELETE_ARRAY` of an array that is deleted already
  | deleted
  deriving DecidableEq

structure Queue (Item : Type) where
  array : List (Option Item)
  head : Nat
  tail : Nat
  -- the pointer is left to an array that `Clear` has deleted
  dangling : Bool := false
  deriving DecidableEq

namespace Queue

/-- What `new` returns: 0 as `allocation_size`, and no array. -/
def empty : Queue Item := { array := [], head := 0, tail := 0 }

def allocationSize (queue : Queue Item) : Nat := queue.array.length

/-- A cell outside the array and one that was never written are no values. -/
def read (array : List (Option Item)) (index : Nat) : Except Failure Item :=
  match array[index]? with
  | some (some item) => .ok item
  | _ => .error (.fault .readPast)

def write (array : List (Option Item)) (index : Nat) (item : Item) :
    Except Failure (List (Option Item)) :=
  if index < array.length then .ok (array.set index (some item))
  else .error (.fault .writePast)

def check (build : Build) (condition : Bool) : Except Failure Unit :=
  (rakAssert build condition).mapError .fault

def size (queue : Queue Item) : Nat :=
  if queue.head ≤ queue.tail then queue.tail - queue.head
  else queue.allocationSize - queue.head + queue.tail

def isEmpty (queue : Queue Item) : Bool := queue.head = queue.tail

def copied (array : List (Option Item)) (head : Nat) : Nat → Except Failure (List Item)
  | 0 => .ok []
  | counter + 1 => do
      let earlier ← copied array head counter
      let item ← read array ((head + counter) % array.length)
      return earlier ++ [item]

def newArray (items : List Item) (allocation : Nat) : List (Option Item) :=
  items.map some ++ List.replicate (allocation - items.length) none

def push (queue : Queue Item) (input : Item) : Except Failure (Queue Item) := do
  if queue.allocationSize = 0 then
    return { array := newArray [input] 16, head := 0, tail := 1 }
  else
    let array ← write queue.array queue.tail input
    let tail := next queue.allocationSize queue.tail
    if tail = queue.head then
      -- need to allocate more memory
      let items ← copied array queue.head queue.allocationSize
      return { array := newArray items (queue.allocationSize * 2)
               head := 0
               tail := queue.allocationSize }
    else
      return { queue with array := array, tail := tail }

def trueIndex (queue : Queue Item) (index : Nat) : Nat :=
  wrap queue.allocationSize (queue.head + index)

/-- `while (readIndex >= index)`, with the `break` at 0. -/
def shiftBack (queue : Queue Item) (index : Nat) :
    Nat → Nat → List (Option Item) → Except Failure (List (Option Item))
  | readIndex, writeIndex, array =>
      if index ≤ readIndex then do
        let item ← read array (queue.trueIndex readIndex)
        let array ← write array (queue.trueIndex writeIndex) item
        match readIndex with
        | 0 => return array
        | readIndex + 1 => shiftBack queue index readIndex (writeIndex - 1) array
      else .ok array

def pushAtHead (build : Build) (queue : Queue Item) (input : Item) (index : Nat) :
    Except Failure (Queue Item) := do
  check build (index ≤ queue.size)
  -- just force a reallocation, will be overwritten
  let queue ← queue.push input
  if queue.size = 1 then
    return queue
  else
    let writeIndex := queue.size - 1
    let array ← shiftBack queue index (writeIndex - 1) writeIndex queue.array
    let array ← write array (queue.trueIndex index) input
    return { queue with array := array }

def pop (build : Build) (queue : Queue Item) : Except Failure (Item × Queue Item) := do
  check build (!queue.isEmpty)
  let head := next queue.allocationSize queue.head
  let item ← read queue.array (if head = 0 then queue.allocationSize - 1 else head - 1)
  return (item, { queue with head := head })

def popTail (build : Build) (queue : Queue Item) : Except Failure (Item × Queue Item) := do
  check build (!queue.isEmpty)
  let tail := if queue.tail ≠ 0 then queue.tail - 1 else queue.allocationSize - 1
  let item ← read queue.array tail
  return (item, { queue with tail := tail })

def peek (build : Build) (queue : Queue Item) : Except Failure Item := do
  check build (!queue.isEmpty)
  read queue.array queue.head

def peekTail (build : Build) (queue : Queue Item) : Except Failure Item := do
  check build (!queue.isEmpty)
  read queue.array (if queue.tail ≠ 0 then queue.tail - 1 else queue.allocationSize - 1)

def operatorAt (build : Build) (queue : Queue Item) (position : Nat) : Except Failure Item := do
  check build (position < queue.size)
  read queue.array (queue.trueIndex position)

/-- `while ( next != tail )`. -/
def closeGap (tail : Nat) :
    Nat → Nat → Nat → List (Option Item) → Except Failure (List (Option Item))
  | 0, _, _, _ => .error .endless
  | fuel + 1, index, following, array =>
      if following = tail then .ok array
      else do
        -- overwrite the previous element
        let item ← read array following
        let array ← write array index item
        closeGap tail fuel following (next array.length following) array

def removeAtIndex (build : Build) (queue : Queue Item) (position : Nat) :
    Except Failure (Queue Item) := do
  check build (position < queue.size)
  check build (!queue.isEmpty)
  if queue.isEmpty || queue.size ≤ position then
    return queue
  else
    let index := queue.trueIndex position
    let array ← closeGap queue.tail queue.allocationSize index (next queue.allocationSize index)
      queue.array
    let tail := if queue.tail = 0 then queue.allocationSize - 1 else queue.tail - 1
    return { queue with array := array, tail := tail }

/-- `while ( counter != tail )`. -/
def findFrom [DecidableEq Item] (queue : Queue Item) (item : Item) :
    Nat → Nat → Except Failure Bool
  | 0, _ => .error .endless
  | fuel + 1, counter =>
      if counter = queue.tail then .ok false
      else do
        let found ← read queue.array counter
        if found = item then
          return true
        else
          findFrom queue item fuel ((counter + 1) % queue.allocationSize)

def find [DecidableEq Item] (queue : Queue Item) (item : Item) : Except Failure Bool :=
  if queue.allocationSize = 0 then .ok false
  else findFrom queue item queue.allocationSize queue.head

/-- `while (newAllocationSize <= Size()) newAllocationSize<<=1;` -/
def doubled (size : Nat) : Nat → Nat → Except Failure Nat
  | 0, _ => .error .endless
  | fuel + 1, newAllocationSize =>
      if newAllocationSize ≤ size then doubled size fuel (newAllocationSize * 2)
      else .ok newAllocationSize

def compress (queue : Queue Item) : Except Failure (Queue Item) := do
  if queue.allocationSize = 0 then
    return queue
  else
    let newAllocationSize ← doubled queue.size (queue.size + 1) 1
    let items ← copied queue.array queue.head queue.size
    return { array := newArray items newAllocationSize, head := 0, tail := queue.size }

def clear (queue : Queue Item) : Queue Item :=
  if queue.allocationSize = 0 then queue
  -- deletes the array, and leaves the pointer to it
  else if 32 < queue.allocationSize then { array := [], head := 0, tail := 0, dangling := true }
  else { queue with head := 0, tail := 0 }

def clearAndForceAllocation (queue : Queue Item) (size : Nat) : Except Failure (Queue Item) :=
  if queue.dangling then .error .deleted
  else .ok { array := newArray [] size, head := 0, tail := 0 }

/-- The items stand in the array from `head` on, and one cell at least is free.
Both hold of the queue that has no array as well. -/
structure Represents (queue : Queue Item) (items : List Item) : Prop where
  headInside : queue.head ≤ queue.allocationSize - 1
  room : items.length ≤ queue.allocationSize - 1
  tailAt : queue.tail = wrap queue.allocationSize (queue.head + items.length)
  spells : Spells queue.array queue.head items

theorem check_true (build : Build) {condition : Bool} (holds : condition = true) :
    check build condition = .ok () := by
  simp [check, rakAssert, holds, Except.mapError]

theorem read_ok {array : List (Option Item)} {index : Nat} {item : Item}
    (found : array[index]? = some (some item)) : read array index = .ok item := by
  simp [read, found]

theorem write_ok {array : List (Option Item)} {index : Nat} (inside : index < array.length)
    (item : Item) : write array index item = .ok (array.set index (some item)) :=
  if_pos inside

theorem empty_represents : Represents (empty : Queue Item) [] where
  headInside := Nat.le_refl 0
  room := Nat.le_refl 0
  tailAt := rfl
  spells := spells_nil [] 0

theorem new_array_length (items : List Item) {allocation : Nat} (fits : items.length ≤ allocation) :
    (newArray items allocation).length = allocation := by
  simp [newArray, Nat.add_sub_cancel' fits]

theorem new_array_represents (items : List Item) {allocation tail : Nat}
    (fits : items.length ≤ allocation - 1) (tailAt : tail = items.length) :
    Represents { array := newArray items allocation, head := 0, tail := tail } items where
  headInside := Nat.zero_le _
  room := by
    simpa [allocationSize, new_array_length items (fits.trans (Nat.sub_le _ _))] using fits
  tailAt := by
    simp only [allocationSize, new_array_length items (fits.trans (Nat.sub_le _ _)), wrap, tailAt]
    split <;> omega
  spells := spells_flat items _

theorem size_represents {queue : Queue Item} {items : List Item}
    (represents : Represents queue items) : queue.size = items.length := by
  rcases represents with ⟨headInside, room, tailAt, _⟩
  simp only [size, tailAt, wrap]
  split <;> split <;> omega

theorem is_empty_represents {queue : Queue Item} {items : List Item}
    (represents : Represents queue items) : queue.isEmpty = items.isEmpty := by
  rcases represents with ⟨headInside, room, tailAt, _⟩
  rw [isEmpty, Bool.eq_iff_iff, decide_eq_true_eq, List.isEmpty_iff, ← List.length_eq_zero_iff,
    tailAt, wrap]
  split <;> omega

theorem unallocated {queue : Queue Item} {items : List Item} (represents : Represents queue items)
    (none : queue.allocationSize = 0) : items = [] := by
  have room := represents.room
  apply List.length_eq_zero_iff.mp
  omega

theorem allocated {queue : Queue Item} {items : List Item} (represents : Represents queue items)
    (held : items ≠ []) :
    queue.head < queue.allocationSize ∧ items.length < queue.allocationSize := by
  have positive := List.length_pos_iff.mpr held
  have headInside := represents.headInside
  have room := represents.room
  omega

theorem check_held (build : Build) {queue : Queue Item} {items : List Item}
    (represents : Represents queue items) (held : items ≠ []) :
    check build (!queue.isEmpty) = .ok () := by
  apply check_true
  simp [is_empty_represents represents, held]

theorem read_position {queue : Queue Item} {items : List Item}
    (represents : Represents queue items) {position : Nat} {item : Item}
    (found : items[position]? = some item) :
    read queue.array (queue.trueIndex position) = .ok item :=
  read_ok (represents.spells position item found)

theorem copied_spells {array : List (Option Item)} {head : Nat} {items : List Item}
    (spells : Spells array head items) (headInside : head < array.length)
    (fits : items.length ≤ array.length) (count : Nat) (inside : count ≤ items.length) :
    copied array head count = .ok (items.take count) := by
  induction count with
  | zero => rfl
  | succ count ih =>
      have found : items[count]? = some items[count] := List.getElem?_eq_getElem inside
      have index : (head + count) % array.length = wrap array.length (head + count) :=
        mod_eq_wrap headInside (by omega)
      have item := read_ok (spells count _ found)
      rw [copied, ih (by omega), index]
      simp only [bind, Except.bind, item, pure, Except.pure]
      rw [List.take_add_one, found]
      rfl

theorem push_represents {queue : Queue Item} {items : List Item}
    (represents : Represents queue items) (item : Item) :
    ∃ after, queue.push item = .ok after ∧ Represents after (items ++ [item]) ∧
      after.allocationSize ≤ max (max 16 queue.allocationSize) (2 * (items ++ [item]).length) := by
  by_cases none : queue.allocationSize = 0
  · cases unallocated represents none
    refine ⟨_, by rw [push, if_pos none]; rfl, new_array_represents [item] (by simp) rfl, ?_⟩
    rw [allocationSize, new_array_length [item] (by simp)]
    omega
  · rcases represents with ⟨headInside, room, tailAt, spells⟩
    have headLt : queue.head < queue.array.length := by
      unfold allocationSize at headInside none
      omega
    have roomLt : items.length < queue.array.length := by
      unfold allocationSize at room none
      omega
    have stored := spells_snoc spells headLt roomLt item
    have tailLt : queue.tail < queue.array.length := by
      rw [tailAt]
      exact wrap_lt headLt (Nat.le_of_lt roomLt)
    have nextTail : next queue.allocationSize queue.tail =
        wrap queue.allocationSize (queue.head + (items ++ [item]).length) := by
      rw [tailAt, List.length_append]
      exact next_wrap headLt roomLt
    unfold allocationSize at tailAt
    rw [← tailAt] at stored
    rw [push, if_neg none, write_ok tailLt item]
    simp only [bind, Except.bind]
    by_cases full : next queue.allocationSize queue.tail = queue.head
    -- every cell is taken, so the items are copied to an array of twice the size
    · have count : (items ++ [item]).length = queue.allocationSize := by
        rw [nextTail] at full
        simp only [List.length_append, List.length_singleton] at full ⊢
        unfold wrap at full
        unfold allocationSize at full ⊢
        split at full <;> omega
      have copy := copied_spells stored (by simpa using headLt) (by simp; omega)
        queue.allocationSize (Nat.le_of_eq count.symm)
      rw [if_pos full, copy, List.take_of_length_le (Nat.le_of_eq count)]
      refine ⟨_, rfl, new_array_represents _ (by omega) count.symm, ?_⟩
      rw [allocationSize, new_array_length _ (by omega)]
      omega
    · rw [if_neg full]
      refine ⟨_, rfl, ⟨?_, ?_, ?_, stored⟩, ?_⟩
      · simpa [allocationSize] using headInside
      · rw [nextTail] at full
        simp only [allocationSize, List.length_append, List.length_singleton, List.length_set] at full ⊢
        unfold wrap at full
        split at full <;> omega
      · simpa [allocationSize] using nextTail
      · simp only [allocationSize, List.length_set]
        omega

/-- One item moves back into the hole behind it, and leaves a hole. -/
theorem shifted (items : List Item) (hole : Item) {position : Nat} (inside : position < items.length) :
    (items.take (position + 1) ++ hole :: items.drop (position + 1)).set (position + 1)
        items[position] =
      items.take position ++ items[position] :: items.drop position := by
  have front : (items.take (position + 1)).length = position + 1 := by
    simp
    omega
  rw [List.set_append_right _ _ (Nat.le_of_eq front), front, Nat.sub_self, List.set_cons_zero,
    ← List.drop_eq_getElem_cons inside, List.take_succ_eq_append_getElem inside]
  simp only [List.append_assoc, List.singleton_append]

theorem behind_head {queue : Queue Item} {items rest : List Item} {item : Item}
    (represents : Represents queue items) (first : items = item :: rest) :
    Represents { queue with head := next queue.allocationSize queue.head } rest := by
  have held := allocated represents (by simp [first])
  have headNext := next_lt held.1
  have room : (item :: rest).length < queue.allocationSize := first ▸ held.2
  rw [first] at represents
  refine ⟨Nat.le_sub_one_of_lt headNext, ?_, ?_, spells_tail represents.spells (Nat.le_of_lt room)⟩
  · simp only [List.length_cons, allocationSize] at room ⊢
    omega
  · exact represents.tailAt.trans (wrap_next (Nat.lt_of_succ_lt room)).symm

theorem pop_represents (build : Build) {queue : Queue Item} {item : Item} {rest : List Item}
    (represents : Represents queue (item :: rest)) :
    ∃ after, queue.pop build = .ok (item, after) ∧ Represents after rest ∧
      after.allocationSize = queue.allocationSize := by
  have held := allocated represents (by simp)
  have popped := read_ok (spells_head represents.spells held.1)
  -- the cell the head has just left
  have left : (if next queue.allocationSize queue.head = 0 then queue.allocationSize - 1
      else next queue.allocationSize queue.head - 1) = queue.head := by
    unfold next
    split <;> split <;> omega
  refine ⟨_, ?_, behind_head represents rfl, rfl⟩
  unfold pop
  simp only [bind, Except.bind, check_held build represents (by simp), left, popped]
  rfl

theorem operator_at_represents (build : Build) {queue : Queue Item} {items : List Item}
    (represents : Represents queue items) {position : Nat} {item : Item}
    (found : items[position]? = some item) : queue.operatorAt build position = .ok item := by
  have inside : position < items.length := (List.getElem?_eq_some_iff.mp found).1
  have checked : check build (decide (position < queue.size)) = .ok () := by
    apply check_true
    simpa [size_represents represents] using inside
  unfold operatorAt
  simp only [bind, Except.bind, checked]
  exact read_position represents found

/-- The item behind the hole fills it, and leaves the hole one further on. -/
theorem closed (items : List Item) (hole : Item) (erased : Nat) {position : Nat}
    (behind : erased ≤ position) (inside : position + 1 < items.length) :
    ((items.eraseIdx erased).take position ++ hole :: items.drop (position + 1)).set position
        items[position + 1] =
      (items.eraseIdx erased).take (position + 1) ++
        items[position + 1] :: items.drop (position + 1 + 1) := by
  have count : (items.eraseIdx erased).length = items.length - 1 :=
    List.length_eraseIdx_of_lt (by omega)
  have front : ((items.eraseIdx erased).take position).length = position := by
    simp [count]
    omega
  have bound : position < (items.eraseIdx erased).length := by omega
  have moved : (items.eraseIdx erased)[position] = items[position + 1] :=
    List.getElem_eraseIdx_of_ge bound behind
  rw [List.set_append_right _ _ (Nat.le_of_eq front), front, Nat.sub_self, List.set_cons_zero,
    List.take_succ_eq_append_getElem bound, moved, List.drop_eq_getElem_cons inside]
  simp only [List.append_assoc, List.singleton_append]

theorem clear_represents {queue : Queue Item} {items : List Item}
    (represents : Represents queue items) :
    Represents queue.clear [] ∧ queue.clear.allocationSize ≤ queue.allocationSize := by
  unfold clear
  split
  · next none =>
      exact ⟨unallocated represents none ▸ represents, Nat.le_refl _⟩
  · split
    · exact ⟨⟨Nat.zero_le _, Nat.zero_le _, rfl, spells_nil [] 0⟩, Nat.zero_le _⟩
    · refine ⟨⟨Nat.zero_le _, Nat.zero_le _, ?_, spells_nil _ _⟩, Nat.le_refl _⟩
      simp [wrap]

end Queue

end DataStructures
