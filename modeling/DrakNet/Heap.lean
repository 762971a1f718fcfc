import Mathlib.Order.Lattice
import DrakNet.HeapOrder
import DrakNet.Queue

/-!
`DataStructures::Heap`. The reliability layer of a connection has one for each
ordering channel, where packets of a RELIABLE_ORDERED `Send` wait that came too
early. The template is modelled for weights of any linear order and for both
values of `isMaxHeap`; the list it keeps its nodes in is a list here. Its
indices are natural numbers for `unsigned int`, with fewer than 2^31 nodes, and
one past the list is a failure in a release build too.
-/

namespace DataStructures

open CString DrakNet

structure HeapNode (weightType dataType : Type) where
  weight : weightType
  data : dataType
  deriving DecidableEq

structure Heap (weightType dataType : Type) where
  heap : List (HeapNode weightType dataType)
  optimizeNextSeriesPush : Bool
  deriving DecidableEq

namespace Heap

variable {weightType dataType : Type}

def empty : Heap weightType dataType := { heap := [], optimizeNextSeriesPush := false }

def size (heap : Heap weightType dataType) : Nat := heap.heap.length

section Nodes

def node (build : Build) (nodes : List (HeapNode weightType dataType)) (position : Nat) :
    Except Failure (HeapNode weightType dataType) := do
  Queue.check build (position < nodes.length)
  match nodes[position]? with
  | some found => return found
  | none => .error (.fault .readPast)

def leftChild (i : Nat) : Nat := i * 2 + 1

def rightChild (i : Nat) : Nat := i * 2 + 2

def parent (build : Build) (i : Nat) : Except Failure Nat := do
  Queue.check build (i ≠ 0)
  return (i - 1) / 2

def swap (build : Build) (nodes : List (HeapNode weightType dataType)) (i j : Nat) :
    Except Failure (List (HeapNode weightType dataType)) := do
  let temp ← node build nodes i
  let other ← node build nodes j
  return (nodes.set i other).set j temp

end Nodes

variable [LinearOrder weightType]

/-- A node of weight `a` belongs above one of weight `b`: every child is less
than its parent in a heap of the one kind and greater in one of the other. -/
def above (isMaxHeap : Bool) (a b : weightType) : Bool :=
  if isMaxHeap then b < a else a < b

section Loops

variable (build : Build) (isMaxHeap : Bool)

/-- `while (currentIndex!=0)`. -/
def siftUp (weight : weightType) :
    Nat → Nat → List (HeapNode weightType dataType) →
      Except Failure (List (HeapNode weightType dataType))
  | 0, _, _ => .error .endless
  | fuel + 1, currentIndex, nodes =>
      if currentIndex = 0 then
        return nodes
      else do
        let parentIndex ← parent build currentIndex
        let upper ← node build nodes parentIndex
        if above isMaxHeap weight upper.weight then
          let nodes ← swap build nodes currentIndex parentIndex
          siftUp weight fuel parentIndex nodes
        else
          return nodes

/-- `for (...; parentIndex < currentIndex; parentIndex++)`, `count` times: none
of these nodes belongs below the new one. -/
def rowFits (nodes : List (HeapNode weightType dataType)) (weight : weightType) :
    Nat → Nat → Except Failure Bool
  | 0, _ => .ok true
  | count + 1, parentIndex => do
      let upper ← node build nodes parentIndex
      if above isMaxHeap weight upper.weight then
        return false
      else
        rowFits nodes weight count (parentIndex + 1)

/-- `while (1)`. -/
def siftDown (currentWeight : weightType) :
    Nat → Nat → List (HeapNode weightType dataType) →
      Except Failure (List (HeapNode weightType dataType))
  | 0, _, _ => .error .endless
  | fuel + 1, currentIndex, nodes =>
      if nodes.length ≤ leftChild currentIndex then
        return nodes
      else if nodes.length ≤ rightChild currentIndex then do
        -- only left node
        let left ← node build nodes (leftChild currentIndex)
        if above isMaxHeap left.weight currentWeight then
          swap build nodes (leftChild currentIndex) currentIndex
        else
          return nodes
      else do
        let left ← node build nodes (leftChild currentIndex)
        let right ← node build nodes (rightChild currentIndex)
        if !above isMaxHeap left.weight currentWeight &&
            !above isMaxHeap right.weight currentWeight then
          return nodes
        else if above isMaxHeap left.weight right.weight then
          let nodes ← swap build nodes (leftChild currentIndex) currentIndex
          siftDown currentWeight fuel (leftChild currentIndex) nodes
        else
          let nodes ← swap build nodes (rightChild currentIndex) currentIndex
          siftDown currentWeight fuel (rightChild currentIndex) nodes

end Loops

section Calls

variable (build : Build) (isMaxHeap : Bool)

def push (heap : Heap weightType dataType) (weight : weightType) (data : dataType) :
    Except Failure (Heap weightType dataType) := do
  let currentIndex := heap.size
  let nodes ← siftUp build isMaxHeap weight (currentIndex + 1) currentIndex
    (heap.heap ++ [{ weight := weight, data := data }])
  return { heap with heap := nodes }

def startSeries (heap : Heap weightType dataType) : Heap weightType dataType :=
  { heap with optimizeNextSeriesPush := false }

def seriesFits (heap : Heap weightType dataType) (weight : weightType) : Except Failure Bool := do
  let currentIndex := heap.size
  if 0 < currentIndex then
    let parentIndex ← parent build currentIndex
    rowFits build isMaxHeap heap.heap weight (currentIndex - parentIndex) parentIndex
  else
    return true

def pushSeries (heap : Heap weightType dataType) (weight : weightType) (data : dataType) :
    Except Failure (Heap weightType dataType) := do
  if !heap.optimizeNextSeriesPush then
    let fits ← heap.seriesFits build isMaxHeap weight
    if fits then
      return { heap := heap.heap ++ [{ weight := weight, data := data }]
               optimizeNextSeriesPush := true }
    else
      heap.push build isMaxHeap weight data
  else
    return { heap with heap := heap.heap ++ [{ weight := weight, data := data }] }

def pop (heap : Heap weightType dataType) (startingIndex : Nat) :
    Except Failure (dataType × Heap weightType dataType) := do
  let returnValue ← node build heap.heap startingIndex
  -- move the last element to the head, and re-heapify
  let last ← node build heap.heap (heap.size - 1)
  let nodes := (heap.heap.set startingIndex last).dropLast
  let nodes ← siftDown build isMaxHeap last.weight (nodes.length + 1) startingIndex nodes
  return (returnValue.data, { heap with heap := nodes })

def peek (heap : Heap weightType dataType) (startingIndex : Nat) : Except Failure dataType := do
  let found ← node build heap.heap startingIndex
  return found.data

def peekWeight (heap : Heap weightType dataType) (startingIndex : Nat) :
    Except Failure weightType := do
  let found ← node build heap.heap startingIndex
  return found.weight

def clear (heap : Heap weightType dataType) : Heap weightType dataType :=
  { heap with heap := [] }

end Calls

end Heap

end DataStructures
