import DrakNet.OrderedList

/-!
`DataStructures::RangeList`. The reliability layer keeps the datagram numbers it
is still to acknowledge in one, those to ask for again in another, and reads
incoming acknowledgements into a third, all with `uint24_t` for `range_type`.

A `range_type` is a `BitVec` here, whose sums and differences wrap. Those of
`uint24_t` do, at 24 bits, and those of an unsigned type that is at least as
wide as `int`; 8 and 16 bits are promoted in C++ and are not meant.
-/

namespace DataStructures

open CString DrakNet

structure RangeNode (width : Nat) where
  minIndex : BitVec width
  maxIndex : BitVec width
  deriving DecidableEq

def rangeNodeComp {width : Nat} (a : BitVec width) (b : RangeNode width) : Int :=
  if a < b.minIndex then -1
  else if a = b.minIndex then 0
  else 1

structure RangeList (width : Nat) where
  ranges : List (RangeNode width)
  deriving DecidableEq

namespace RangeList

variable {width : Nat}

def empty : RangeList width := { ranges := [] }

/-- `ranges.Insert(index, RangeNode(index, index), true)`. -/
def insertNode (build : Build) (ranges : List (RangeNode width)) (index : BitVec width) :
    Except Failure (RangeList width) := do
  let (_, ranges) ← OrderedList.insert build rangeNodeComp ranges index
    { minIndex := index, maxIndex := index } true
  return { ranges := ranges }

/-- `minIndex--`, and join left. -/
def lowerMin (build : Build) (ranges : List (RangeNode width)) (insertionIndex : Nat)
    (here : RangeNode width) : Except Failure (RangeList width) := do
  let here := { here with minIndex := here.minIndex - 1 }
  let ranges := ranges.set insertionIndex here
  if 0 < insertionIndex then
    let left ← List.operatorAt build ranges (insertionIndex - 1)
    if left.maxIndex + 1 = here.minIndex then
      let ranges := ranges.set (insertionIndex - 1) { left with maxIndex := here.maxIndex }
      let ranges ← List.removeAtIndex build ranges insertionIndex
      return { ranges := ranges }
    else
      return { ranges := ranges }
  else
    return { ranges := ranges }

/-- `maxIndex++`, and join right. -/
def raiseMax (build : Build) (ranges : List (RangeNode width)) (insertionIndex : Nat)
    (here : RangeNode width) : Except Failure (RangeList width) := do
  let here := { here with maxIndex := here.maxIndex + 1 }
  let ranges := ranges.set insertionIndex here
  if insertionIndex < ranges.length - 1 then
    let right ← List.operatorAt build ranges (insertionIndex + 1)
    if right.minIndex = here.maxIndex + 1 then
      let ranges := ranges.set (insertionIndex + 1) { right with minIndex := here.minIndex }
      let ranges ← List.removeAtIndex build ranges insertionIndex
      return { ranges := ranges }
    else
      return { ranges := ranges }
  else
    return { ranges := ranges }

def insert (build : Build) (list : RangeList width) (index : BitVec width) :
    Except Failure (RangeList width) := do
  let ranges := list.ranges
  if ranges.length = 0 then
    insertNode build ranges index
  else
    let (insertionIndex, _) ← OrderedList.getIndexFromKey build rangeNodeComp ranges index
    if insertionIndex = ranges.length then
      let last ← List.operatorAt build ranges (insertionIndex - 1)
      if index = last.maxIndex + 1 then
        return { ranges := ranges.set (insertionIndex - 1)
                  { last with maxIndex := last.maxIndex + 1 } }
      else if last.maxIndex + 1 < index then
        insertNode build ranges index
      else
        return list
    else
      let here ← List.operatorAt build ranges insertionIndex
      if index < here.minIndex - 1 then
        let ranges ← List.insertAt build ranges { minIndex := index, maxIndex := index }
          insertionIndex
        return { ranges := ranges }
      else if index = here.minIndex - 1 then
        lowerMin build ranges insertionIndex here
      else if here.minIndex ≤ index ∧ index ≤ here.maxIndex then
        -- already exists
        return list
      else if index = here.maxIndex + 1 then
        raiseMax build ranges insertionIndex here
      else
        return list

def clear (_list : RangeList width) : RangeList width := { ranges := [] }

def size (list : RangeList width) : Nat := list.ranges.length

end RangeList

end DataStructures
