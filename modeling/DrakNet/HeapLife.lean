import Mathlib.Data.Multiset.AddSub
import DrakNet.HeapCalls
import DrakNet.Runs

/-!
A heap over sequences of calls. As long as each call keeps to `Keeps`, the heap
is a priority queue: `Answers` says what its user may rely on, in terms of the
nodes it holds only.
-/

namespace DataStructures.Heap

open CString DrakNet Runs

variable {weightType dataType : Type}

inductive Call (weightType dataType : Type) where
  | push (weight : weightType) (data : dataType)
  | startSeries
  | pushSeries (weight : weightType) (data : dataType)
  | pop (startingIndex : Nat)
  | peek (startingIndex : Nat)
  | peekWeight (startingIndex : Nat)
  | clear
  | size

inductive Answer (weightType dataType : Type) where
  | done
  | data (found : dataType)
  | weight (found : weightType)
  | count (found : Nat)
  deriving DecidableEq

variable [LinearOrder weightType]

def serve (build : Build) (isMaxHeap : Bool) (heap : Heap weightType dataType) :
    Call weightType dataType →
      Except Failure (Answer weightType dataType × Heap weightType dataType)
  | .push weight data => do
      let heap ← heap.push build isMaxHeap weight data
      return (.done, heap)
  | .startSeries => return (.done, heap.startSeries)
  | .pushSeries weight data => do
      let heap ← heap.pushSeries build isMaxHeap weight data
      return (.done, heap)
  | .pop startingIndex => do
      let (found, heap) ← heap.pop build isMaxHeap startingIndex
      return (.data found, heap)
  | .peek startingIndex => do
      let found ← heap.peek build startingIndex
      return (.data found, heap)
  | .peekWeight startingIndex => do
      let found ← heap.peekWeight build startingIndex
      return (.weight found, heap)
  | .clear => return (.done, heap.clear)
  | .size => return (.count heap.size, heap)

/-- What a caller owes: indices of the heap; no `Pop` inside the heap that
would move its last node above where it belongs; in a series, nothing that
belongs above its parent. -/
def Keeps (isMaxHeap : Bool) (heap : Heap weightType dataType) : Call weightType dataType → Prop
  | .pushSeries weight _ => heap.optimizeNextSeriesPush = true →
      ∀ upper, 0 < heap.size → weights heap.heap (Heaps.parent heap.size) = some upper →
        Upon isMaxHeap upper weight
  | .pop startingIndex => startingIndex < heap.size ∧ MayPop isMaxHeap heap.heap startingIndex
  | .peek startingIndex => startingIndex < heap.size
  | .peekWeight startingIndex => startingIndex < heap.size
  | _ => True

section Specification

/-- A node of the heap; at index 0 one that may stand above all others. -/
def Picked (isMaxHeap : Bool) (held : Multiset (HeapNode weightType dataType))
    (startingIndex : Nat) (node : HeapNode weightType dataType) : Prop :=
  node ∈ held ∧ (startingIndex = 0 → ∀ other ∈ held, Upon isMaxHeap node.weight other.weight)

def Answers (isMaxHeap : Bool) (held : Multiset (HeapNode weightType dataType))
    (call : Call weightType dataType) (answer : Answer weightType dataType)
    (after : Multiset (HeapNode weightType dataType)) : Prop :=
  match call with
  | .push weight data => answer = .done ∧ after = { weight := weight, data := data } ::ₘ held
  | .pushSeries weight data => answer = .done ∧ after = { weight := weight, data := data } ::ₘ held
  | .startSeries => answer = .done ∧ after = held
  | .pop startingIndex => ∃ node, Picked isMaxHeap held startingIndex node ∧
      answer = .data node.data ∧ held = node ::ₘ after
  | .peek startingIndex => ∃ node, Picked isMaxHeap held startingIndex node ∧
      answer = .data node.data ∧ after = held
  | .peekWeight startingIndex => ∃ node, Picked isMaxHeap held startingIndex node ∧
      answer = .weight node.weight ∧ after = held
  | .clear => answer = .done ∧ after = 0
  | .size => answer = .count (Multiset.card held) ∧ after = held

end Specification

section Calls

variable (build : Build) {isMaxHeap : Bool} {heap : Heap weightType dataType}

def held (heap : Heap weightType dataType) : Multiset (HeapNode weightType dataType) := heap.heap

theorem picked_node (ordered : InOrder isMaxHeap heap.heap) {startingIndex : Nat}
    (inside : startingIndex < heap.heap.length) :
    Picked isMaxHeap heap.held startingIndex heap.heap[startingIndex] := by
  refine ⟨List.getElem_mem inside, ?_⟩
  rintro rfl other member
  obtain ⟨i, within, rfl⟩ := List.mem_iff_getElem.mp (Multiset.mem_coe.mp member)
  refine Heaps.root_first (upon_refl isMaxHeap) (upon_trans isMaxHeap) ordered ?_
    (weights_inside inside) i _ (weights_inside within)
  intro j found
  obtain ⟨weight, here⟩ := Option.isSome_iff_exists.mp found
  obtain ⟨short, _⟩ := weights_some here
  rw [weights_inside (show Heaps.parent j < heap.heap.length by unfold Heaps.parent; omega)]
  rfl

theorem kept_answers (ordered : InOrder isMaxHeap heap.heap) (call : Call weightType dataType)
    (keeps : Keeps isMaxHeap heap call) :
    ∃ answer after, serve build isMaxHeap heap call = .ok (answer, after) ∧
      InOrder isMaxHeap after.heap ∧ Answers isMaxHeap heap.held call answer after.held := by
  cases call with
  | push weight data =>
      obtain ⟨after, pushed, perm, kept⟩ := push_ok build ordered weight data
      refine ⟨.done, { heap with heap := after }, ?_, kept, rfl, ?_⟩
      · simp only [serve, pushed, bind, Except.bind, pure, Except.pure]
      · exact Multiset.coe_eq_coe.mpr (perm.trans (List.perm_append_singleton _ _))
  | startSeries => exact ⟨.done, heap.startSeries, rfl, ordered, rfl, rfl⟩
  | pushSeries weight data =>
      by_cases going : heap.optimizeNextSeriesPush = true
      · refine ⟨.done, { heap with
          heap := heap.heap ++ [{ weight := weight, data := data }] }, ?_, ?_, rfl, ?_⟩
        · simp only [serve, push_series_going build going, bind, Except.bind, pure, Except.pure]
        · exact (appended_in_order ordered).mpr (keeps going)
        · exact Multiset.coe_eq_coe.mpr (List.perm_append_singleton _ _)
      · obtain ⟨after, pushed, perm, kept, _⟩ :=
          push_series_first build ordered (Bool.eq_false_iff.mpr going) weight data
        refine ⟨.done, after, ?_, kept, rfl, ?_⟩
        · simp only [serve, pushed, bind, Except.bind, pure, Except.pure]
        · exact Multiset.coe_eq_coe.mpr (perm.trans (List.perm_append_singleton _ _))
  | pop startingIndex =>
      obtain ⟨inside, may⟩ := keeps
      obtain ⟨after, popped, perm, kept⟩ :=
        pop_in_order build ordered inside may heap.optimizeNextSeriesPush
      refine ⟨.data heap.heap[startingIndex].data, { heap with heap := after }, ?_, kept,
        heap.heap[startingIndex], picked_node ordered inside, rfl, ?_⟩
      · simp only [serve, popped, bind, Except.bind, pure, Except.pure]
      · exact (Multiset.coe_eq_coe.mpr perm).symm
  | peek startingIndex =>
      refine ⟨.data heap.heap[startingIndex].data, heap, ?_, ordered,
        heap.heap[startingIndex], picked_node ordered keeps, rfl, rfl⟩
      simp only [serve, peek, node_ok build keeps, bind, Except.bind, pure, Except.pure]
  | peekWeight startingIndex =>
      refine ⟨.weight heap.heap[startingIndex].weight, heap, ?_, ordered,
        heap.heap[startingIndex], picked_node ordered keeps, rfl, rfl⟩
      simp only [serve, peekWeight, node_ok build keeps, bind, Except.bind, pure, Except.pure]
  | clear =>
      refine ⟨.done, heap.clear, rfl, ?_, rfl, rfl⟩
      intro i upper lower _ _ lowerAt
      simp [clear, weights] at lowerAt
  | size => exact ⟨.count heap.size, heap, rfl, ordered, rfl, rfl⟩

theorem answered_keeps (ordered : InOrder isMaxHeap heap.heap) (call : Call weightType dataType)
    {answer : Answer weightType dataType} {after : Heap weightType dataType}
    (served : serve build isMaxHeap heap call = .ok (answer, after))
    (kept : InOrder isMaxHeap after.heap) : Keeps isMaxHeap heap call := by
  cases call with
  | pushSeries weight data =>
      intro going
      simp only [serve, push_series_going build going, bind, Except.bind, pure, Except.pure,
        Except.ok.injEq, Prod.mk.injEq] at served
      obtain ⟨_, rfl⟩ := served
      exact (appended_in_order ordered).mp kept
  | pop startingIndex =>
      have inside : startingIndex < heap.size := by
        rcases popped : heap.pop build isMaxHeap startingIndex with error | result
        · simp [serve, popped, bind, Except.bind] at served
        · exact read_inside popped
      refine ⟨inside, ?_⟩
      by_contra mayNot
      obtain ⟨left, popped, disordered⟩ :=
        pop_out_of_order build ordered inside mayNot heap.optimizeNextSeriesPush
      simp only [serve, popped, bind, Except.bind, pure, Except.pure, Except.ok.injEq,
        Prod.mk.injEq] at served
      obtain ⟨_, rfl⟩ := served
      exact disordered kept
  | peek startingIndex =>
      rcases peeked : heap.peek build startingIndex with error | found
      · simp [serve, peeked, bind, Except.bind] at served
      · exact read_inside peeked
  | peekWeight startingIndex =>
      rcases peeked : heap.peekWeight build startingIndex with error | found
      · simp [serve, peeked, bind, Except.bind] at served
      · exact read_inside peeked
  | push => trivial
  | startSeries => trivial
  | clear => trivial
  | size => trivial

theorem empty_in_order : InOrder isMaxHeap (empty : Heap weightType dataType).heap := by
  intro i upper lower _ _ lowerAt
  simp [empty, weights] at lowerAt

end Calls

section Lives

variable (build : Build) (isMaxHeap : Bool) (sequence : List (Call weightType dataType))

/-- The contract is exact: a heap is in order after each call of a sequence
where each call keeps to it, and only there. -/
theorem life_in_order_iff :
    Throughout (serve build isMaxHeap) (Keeps isMaxHeap) empty sequence ↔
      ∀ made, made <+: sequence →
        ∃ answers last, calls (serve build isMaxHeap) empty made = .ok (answers, last) ∧
          InOrder isMaxHeap last.heap := by
  refine throughout_iff (fun heap : Heap weightType dataType => InOrder isMaxHeap heap.heap) ?_
    empty empty_in_order sequence
  intro heap call ordered
  constructor
  · intro keeps
    obtain ⟨answer, after, served, kept, _⟩ := kept_answers build ordered call keeps
    exact ⟨answer, after, served, kept⟩
  · rintro ⟨answer, after, served, kept⟩
    exact answered_keeps build ordered call served kept

/-- The node of weight 3 is left under one of weight 10. -/
example : (pop ⟨.x64, true⟩ false ⟨[⟨1, ()⟩, ⟨10, ()⟩, ⟨2, ()⟩, ⟨11, ()⟩, ⟨12, ()⟩, ⟨3, ()⟩], false⟩
    3).map (fun popped => popped.2.heap.map HeapNode.weight) = .ok [1, 10, 2, 3, 12] := by rfl

theorem kept_trace {heap : Heap weightType dataType} (ordered : InOrder isMaxHeap heap.heap)
    (through : Throughout (serve build isMaxHeap) (Keeps isMaxHeap) heap sequence) :
    ∃ answers last, calls (serve build isMaxHeap) heap sequence = .ok (answers, last) ∧
      InOrder isMaxHeap last.heap ∧
      Trace (Answers isMaxHeap) heap.held sequence answers last.held :=
  throughout_trace (fun heap => InOrder isMaxHeap heap.heap) held
    (fun _ call ordered keeps => kept_answers build ordered call keeps) heap ordered sequence
    through

/-- The heap refines a priority queue. -/
theorem life_is_priority_queue
    (through : Throughout (serve build isMaxHeap) (Keeps isMaxHeap) empty sequence) :
    ∃ answers last, calls (serve build isMaxHeap) empty sequence = .ok (answers, last) ∧
      Trace (Answers isMaxHeap) 0 sequence answers last.held := by
  obtain ⟨answers, last, ran, _, trace⟩ := kept_trace build isMaxHeap sequence empty_in_order through
  exact ⟨answers, last, ran, trace⟩

theorem three_queued : ∃ answers last,
    calls (serve ⟨.x64, true⟩ false) (empty : Heap Nat Char)
        [.push 9 'a', .push 4 'b', .pop 0] = .ok (answers, last) ∧
      Trace (Answers false) 0 [.push 9 'a', .push 4 'b', .pop 0] answers last.held :=
  life_is_priority_queue ⟨.x64, true⟩ false [.push 9 'a', .push 4 'b', .pop 0]
    ((throughout_served (by rfl) _).mpr ⟨trivial,
      (throughout_served (by rfl) _).mpr ⟨trivial,
        ⟨⟨by decide, Or.inl rfl⟩, fun _ _ _ => trivial⟩⟩⟩)

theorem reached_in_order {answers : List (Answer weightType dataType)}
    {heap : Heap weightType dataType}
    (through : Throughout (serve build isMaxHeap) (Keeps isMaxHeap) empty sequence)
    (ran : calls (serve build isMaxHeap) empty sequence = .ok (answers, heap)) :
    InOrder isMaxHeap heap.heap := by
  obtain ⟨_, _, same, kept, _⟩ := kept_trace build isMaxHeap sequence empty_in_order through
  cases ran.symm.trans same
  exact kept

def Descending (nodes : List (HeapNode weightType dataType)) : Prop :=
  nodes.Pairwise fun first later => Upon isMaxHeap first.weight later.weight

def inSeries (node : HeapNode weightType dataType) : Call weightType dataType :=
  .pushSeries node.weight node.data

theorem series_served (series : List (HeapNode weightType dataType))
    (descending : Descending isMaxHeap series) (heap : Heap weightType dataType)
    (ordered : InOrder isMaxHeap heap.heap)
    (row : heap.optimizeNextSeriesPush = true →
      ∀ node ∈ series, RowAbove isMaxHeap heap.heap node.weight) :
    ∃ answers last, calls (serve build isMaxHeap) heap (series.map inSeries) = .ok (answers, last) ∧
      InOrder isMaxHeap last.heap ∧ last.heap.Perm (heap.heap ++ series) := by
  induction series generalizing heap with
  | nil => exact ⟨[], heap, rfl, ordered, by simp⟩
  | cons node rest ih =>
      obtain ⟨next, descendingRest⟩ := List.pairwise_cons.mp descending
      obtain ⟨after, pushed, perm, kept, going⟩ : ∃ after,
          pushSeries build isMaxHeap heap node.weight node.data = .ok after ∧
          after.heap.Perm (heap.heap ++ [node]) ∧ InOrder isMaxHeap after.heap ∧
          (after.optimizeNextSeriesPush = true →
            RowAbove isMaxHeap after.heap node.weight) := by
        by_cases flag : heap.optimizeNextSeriesPush = true
        · have mine := row flag node List.mem_cons_self
          exact ⟨_, push_series_going build flag node.weight node.data, List.Perm.refl _,
            row_above_in_order ordered mine, fun _ => row_above_appended mine⟩
        · exact push_series_first build ordered (Bool.eq_false_iff.mpr flag) node.weight node.data
      obtain ⟨answers, last, ran, done, permLast⟩ := ih descendingRest after kept (by
        intro flag other member
        exact row_above_mono (going flag) (next other member))
      refine ⟨.done :: answers, last, ?_, done, ?_⟩
      · simp only [List.map_cons, calls, serve, inSeries, pushed, bind, Except.bind, pure,
          Except.pure]
        simp only [ran]
      · have whole := permLast.trans (perm.append_right rest)
        rwa [List.append_assoc, List.singleton_append] at whole

/-- A series as `PushSeries` asks for it goes in, wherever calls within the
contract have left the heap. -/
theorem series_in_order {answers : List (Answer weightType dataType)}
    {heap : Heap weightType dataType}
    (through : Throughout (serve build isMaxHeap) (Keeps isMaxHeap) empty sequence)
    (ran : calls (serve build isMaxHeap) empty sequence = .ok (answers, heap))
    (series : List (HeapNode weightType dataType)) (descending : Descending isMaxHeap series) :
    ∃ more last, calls (serve build isMaxHeap) heap (.startSeries :: series.map inSeries) =
        .ok (more, last) ∧
      InOrder isMaxHeap last.heap ∧ last.heap.Perm (heap.heap ++ series) := by
  have ordered := reached_in_order build isMaxHeap sequence through ran
  obtain ⟨more, last, served, kept, perm⟩ := series_served build isMaxHeap series descending
    heap.startSeries ordered nofun
  exact ⟨.done :: more, last, calls_cons rfl served, kept, perm⟩

theorem three_in_series : ∃ more last,
    calls (serve ⟨.x64, true⟩ false) (⟨[⟨4, 'a'⟩], false⟩ : Heap Nat Char)
        (.startSeries :: [⟨5, 'b'⟩, ⟨5, 'c'⟩, ⟨7, 'd'⟩].map inSeries) = .ok (more, last) ∧
      InOrder false last.heap ∧
      last.heap.Perm ([⟨4, 'a'⟩] ++ [⟨5, 'b'⟩, ⟨5, 'c'⟩, ⟨7, 'd'⟩]) :=
  series_in_order ⟨.x64, true⟩ false [.push 4 'a'] ⟨trivial, fun _ _ _ => trivial⟩ (by rfl)
    [⟨5, 'b'⟩, ⟨5, 'c'⟩, ⟨7, 'd'⟩] (by simp [Descending, Upon, above])

theorem drained (nodes : List (HeapNode weightType dataType)) (flag : Bool)
    (ordered : InOrder isMaxHeap nodes) :
    ∃ taken, taken.Perm nodes ∧ Descending isMaxHeap taken ∧
      calls (serve build isMaxHeap) { heap := nodes, optimizeNextSeriesPush := flag }
          (List.replicate nodes.length (.pop 0)) =
        .ok (taken.map fun node => .data node.data,
          { heap := [], optimizeNextSeriesPush := flag }) := by
  generalize count : nodes.length = left
  induction left generalizing nodes with
  | zero =>
      rw [List.length_eq_zero_iff.mp count]
      exact ⟨[], List.Perm.refl _, List.Pairwise.nil, rfl⟩
  | succ left ih =>
      have inside : 0 < nodes.length := by omega
      obtain ⟨after, popped, perm, kept⟩ := pop_in_order build ordered inside (Or.inl rfl) flag
      obtain ⟨taken, same, descending, ran⟩ := ih after kept (by
        have shorter := perm.length_eq
        rw [List.length_cons] at shorter
        omega)
      have picked : Picked isMaxHeap (held ⟨nodes, flag⟩) 0 nodes[0] := picked_node ordered inside
      refine ⟨nodes[0] :: taken, (same.cons _).trans perm, List.pairwise_cons.mpr ⟨?_, descending⟩,
        ?_⟩
      · intro other member
        apply picked.2 rfl other
        exact perm.subset (List.mem_cons_of_mem _ (same.subset member))
      · simp only [List.replicate_succ, calls, serve, popped, ran, bind, Except.bind, pure,
          Except.pure, List.map_cons]

/-- Emptied from index 0, a heap gives all its nodes, in order of weight. -/
theorem drained_in_order {answers : List (Answer weightType dataType)}
    {heap : Heap weightType dataType}
    (through : Throughout (serve build isMaxHeap) (Keeps isMaxHeap) empty sequence)
    (ran : calls (serve build isMaxHeap) empty sequence = .ok (answers, heap)) :
    ∃ taken, taken.Perm heap.heap ∧ Descending isMaxHeap taken ∧
      calls (serve build isMaxHeap) heap (List.replicate heap.size (.pop 0)) =
        .ok (taken.map fun node => .data node.data, heap.clear) :=
  drained build isMaxHeap heap.heap heap.optimizeNextSeriesPush
    (reached_in_order build isMaxHeap sequence through ran)

theorem three_drained : ∃ taken,
    taken.Perm [⟨4, 'c'⟩, ⟨9, 'a'⟩, ⟨7, 'b'⟩] ∧ Descending false taken ∧
      calls (serve ⟨.x64, true⟩ false)
          (⟨[⟨4, 'c'⟩, ⟨9, 'a'⟩, ⟨7, 'b'⟩], false⟩ : Heap Nat Char)
          [.pop 0, .pop 0, .pop 0] =
        .ok (taken.map fun node => .data node.data, ⟨[], false⟩) :=
  drained_in_order ⟨.x64, true⟩ false [.push 9 'a', .push 7 'b', .push 4 'c']
    ⟨trivial, fun _ _ _ => ⟨trivial, fun _ _ _ => ⟨trivial, fun _ _ _ => trivial⟩⟩⟩ (by rfl)

end Lives

end DataStructures.Heap
