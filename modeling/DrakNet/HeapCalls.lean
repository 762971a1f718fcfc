import Mathlib.Data.List.Perm.Basic
import DrakNet.HeapSifts

/-!
What each call of a heap does to its nodes. `Pop` sifts down only: what it
leaves is in order where the last node may stand below the parent of the place
it is moved to. A series goes to the end of the list once the first of its
nodes has been compared with a whole row.
-/

namespace DataStructures.Heap

open CString DrakNet Heaps

variable {weightType dataType : Type}

section Lists

variable {nodes : List (HeapNode weightType dataType)} {startingIndex : Nat}

theorem weights_append (added : HeapNode weightType dataType) (i : Nat) :
    weights (nodes ++ [added]) i =
      if i = nodes.length then some added.weight else weights nodes i := by
  by_cases last : i = nodes.length
  · subst i
    simp [weights]
  · by_cases inside : i < nodes.length
    · simp [weights, last, inside, List.getElem?_append_left inside]
    · simp only [last, ↓reduceIte]
      rw [weights_outside (Nat.le_of_not_lt inside), weights_outside]
      simp only [List.length_append, List.length_singleton]
      omega

variable (nodes startingIndex) in
/-- The list `Pop` goes on with: its last node in the place of the one that
goes. -/
def refilled (last : HeapNode weightType dataType) : List (HeapNode weightType dataType) :=
  (nodes.set startingIndex last).dropLast

theorem refilled_perm (inside : startingIndex < nodes.length)
    (within : nodes.length - 1 < nodes.length) :
    (nodes[startingIndex] :: refilled nodes startingIndex nodes[nodes.length - 1]).Perm nodes := by
  have nonempty : nodes.set startingIndex nodes[nodes.length - 1] ≠ [] := by
    apply List.ne_nil_of_length_pos
    rw [List.length_set]
    omega
  have ending : (nodes.set startingIndex nodes[nodes.length - 1]).getLast nonempty =
      nodes[nodes.length - 1] := by
    rw [List.getLast_eq_getElem]
    by_cases same : startingIndex = nodes.length - 1
    · subst same
      simp
    · simp [same]
  have whole := List.dropLast_append_getLast nonempty
  rw [ending] at whole
  have moved : (nodes[nodes.length - 1] ::
      refilled nodes startingIndex nodes[nodes.length - 1]).Perm
        (nodes.set startingIndex nodes[nodes.length - 1]) :=
    (List.perm_append_singleton _ _).symm.trans (List.Perm.of_eq whole)
  have others := (List.perm_cons _).mp
    (moved.trans (List.set_perm_cons_eraseIdx inside _))
  exact (others.cons _).trans (List.getElem_cons_eraseIdx_perm inside)

theorem weights_refilled (inside : startingIndex < nodes.length)
    (last : HeapNode weightType dataType) (i : Nat) :
    weights (refilled nodes startingIndex last) i =
      if i + 1 < nodes.length then if i = startingIndex then some last.weight else weights nodes i
      else none := by
  unfold weights refilled
  rw [List.getElem?_dropLast, List.length_set]
  by_cases within : i + 1 < nodes.length
  · rw [if_pos within, if_pos (by omega)]
    by_cases own : i = startingIndex
    · subst i
      simp [inside]
    · simp [own, Ne.symm own]
  · rw [if_neg within, if_neg (by omega)]
    rfl

end Lists

variable [LinearOrder weightType] (build : Build) {isMaxHeap : Bool}

section Pushing

variable {nodes : List (HeapNode weightType dataType)} {added : HeapNode weightType dataType}

theorem appended_rising (ordered : InOrder isMaxHeap nodes) :
    Rising (Upon isMaxHeap) (weights (nodes ++ [added])) nodes.length := by
  constructor
  · intro i upper lower positive other upperAt lowerAt
    rw [weights_append, if_neg other] at lowerAt
    obtain ⟨inside, _⟩ := weights_some lowerAt
    have earlier := parent_lt positive
    rw [weights_append, if_neg (by omega)] at upperAt
    exact ordered i upper lower positive upperAt lowerAt
  · intro i upper lower _ positive hangs _ lowerAt
    have later := parent_lt positive
    rw [weights_append, if_neg (by omega), weights_outside (by omega)] at lowerAt
    contradiction

theorem appended_in_order (ordered : InOrder isMaxHeap nodes) :
    InOrder isMaxHeap (nodes ++ [added]) ↔
      ∀ upper, 0 < nodes.length → weights nodes (Heaps.parent nodes.length) = some upper →
        Upon isMaxHeap upper added.weight := by
  have own : weights (nodes ++ [added]) nodes.length = some added.weight := by
    rw [weights_append, if_pos rfl]
  have earlier : 0 < nodes.length →
      weights (nodes ++ [added]) (Heaps.parent nodes.length) =
        weights nodes (Heaps.parent nodes.length) := by
    intro positive
    have before := parent_lt positive
    rw [weights_append, if_neg (by omega)]
  constructor
  · intro kept upper positive upperAt
    exact kept nodes.length upper added.weight positive ((earlier positive).trans upperAt) own
  · intro fits
    apply rising_done (appended_rising ordered)
    intro upper lower positive upperAt lowerAt
    rw [own] at lowerAt
    cases lowerAt
    exact fits upper positive ((earlier positive).symm.trans upperAt)

theorem push_ok {heap : Heap weightType dataType} (ordered : InOrder isMaxHeap heap.heap)
    (weight : weightType) (data : dataType) :
    ∃ after, push build isMaxHeap heap weight data = .ok { heap with heap := after } ∧
      after.Perm (heap.heap ++ [{ weight := weight, data := data }]) ∧
      InOrder isMaxHeap after := by
  have here : weights (heap.heap ++ [{ weight := weight, data := data }]) heap.size =
      some weight := by
    rw [weights_append]
    simp [size]
  obtain ⟨after, lifted, perm, kept⟩ := sift_up_ordered build isMaxHeap weight (heap.size + 1)
    heap.size (heap.heap ++ [{ weight := weight, data := data }]) (Nat.lt_succ_self _) here
    (appended_rising ordered)
  refine ⟨after, ?_, perm, kept⟩
  simp only [push, lifted, bind, Except.bind, pure, Except.pure]

variable (isMaxHeap) in
theorem row_fits_ok (nodes : List (HeapNode weightType dataType)) (weight : weightType)
    (count parentIndex : Nat)
    (inside : parentIndex + count ≤ nodes.length) :
    ∃ fits, rowFits build isMaxHeap nodes weight count parentIndex = .ok fits ∧
      (fits = true ↔ ∀ i upper, parentIndex ≤ i → i < parentIndex + count →
        weights nodes i = some upper → Upon isMaxHeap upper weight) := by
  induction count generalizing parentIndex with
  | zero =>
      refine ⟨true, rfl, ?_⟩
      simp only [true_iff]
      intro i upper first last
      omega
  | succ count ih =>
      have within : parentIndex < nodes.length := by omega
      have found := weights_inside within
      by_cases higher : above isMaxHeap weight nodes[parentIndex].weight = true
      · refine ⟨false, ?_, ?_⟩
        · simp only [rowFits, node_ok build within, higher, ↓reduceIte, bind, Except.bind, pure,
            Except.pure]
        · simp only [Bool.false_eq_true, false_iff]
          intro all
          have fits := all parentIndex _ (Nat.le_refl _) (by omega) found
          simp [Upon, higher] at fits
      · obtain ⟨fits, ran, meaning⟩ := ih (parentIndex + 1) (by omega)
        refine ⟨fits, ?_, meaning.trans ?_⟩
        · simp only [rowFits, node_ok build within, higher, ran, bind, Except.bind,
            Bool.false_eq_true, ↓reduceIte]
        · constructor
          · intro later i upper first last upperAt
            by_cases own : i = parentIndex
            · subst i
              cases found.symm.trans upperAt
              simpa [Upon] using higher
            · exact later i upper (by omega) (by omega) upperAt
          · intro all i upper first last
            exact all i upper (by omega) (by omega)

variable (isMaxHeap nodes) in
/-- No node from the parent of the next one on belongs below the weight. -/
def RowAbove (weight : weightType) : Prop :=
  ∀ i upper, Heaps.parent nodes.length ≤ i → weights nodes i = some upper →
    Upon isMaxHeap upper weight

theorem row_above_appended (row : RowAbove isMaxHeap nodes added.weight) :
    RowAbove isMaxHeap (nodes ++ [added]) added.weight := by
  intro i upper first upperAt
  rw [weights_append] at upperAt
  by_cases last : i = nodes.length
  · rw [if_pos last] at upperAt
    cases upperAt
    exact upon_refl isMaxHeap _
  · rw [if_neg last] at upperAt
    apply row i upper _ upperAt
    simp only [Heaps.parent, List.length_append, List.length_singleton] at first ⊢
    omega

theorem row_above_in_order (ordered : InOrder isMaxHeap nodes)
    (row : RowAbove isMaxHeap nodes added.weight) : InOrder isMaxHeap (nodes ++ [added]) := by
  apply (appended_in_order ordered).mpr
  intro upper positive upperAt
  exact row (Heaps.parent nodes.length) upper (Nat.le_refl _) upperAt

theorem row_above_mono {first later : weightType} (row : RowAbove isMaxHeap nodes first)
    (next : Upon isMaxHeap first later) : RowAbove isMaxHeap nodes later := by
  intro i upper start upperAt
  exact upon_trans isMaxHeap upper first later (row i upper start upperAt) next

variable (isMaxHeap) in
theorem series_fits_ok (heap : Heap weightType dataType) (weight : weightType) :
    ∃ fits, seriesFits build isMaxHeap heap weight = .ok fits ∧
      (fits = true → RowAbove isMaxHeap heap.heap weight) := by
  by_cases some : 0 < heap.size
  · have before : (heap.size - 1) / 2 < heap.size := parent_lt some
    obtain ⟨fits, ran, meaning⟩ := row_fits_ok build isMaxHeap
      heap.heap weight (heap.size - (heap.size - 1) / 2) ((heap.size - 1) / 2)
      (by simp only [size] at before ⊢; omega)
    refine ⟨fits, ?_, ?_⟩
    · simp only [seriesFits, some, ↓reduceIte, parent_ok build (Nat.ne_of_gt some), ran, bind,
        Except.bind]
    · intro fitted i upper first upperAt
      obtain ⟨inside, _⟩ := weights_some upperAt
      refine meaning.mp fitted i upper first ?_ upperAt
      simp only [size] at before ⊢
      omega
  · refine ⟨true, ?_, ?_⟩
    · simp only [seriesFits, some, ↓reduceIte, pure, Except.pure]
    · intro _ i upper _ upperAt
      obtain ⟨inside, _⟩ := weights_some upperAt
      simp only [size] at some
      omega

theorem push_series_first {heap : Heap weightType dataType}
    (ordered : InOrder isMaxHeap heap.heap) (fresh : heap.optimizeNextSeriesPush = false)
    (weight : weightType) (data : dataType) :
    ∃ after, pushSeries build isMaxHeap heap weight data = .ok after ∧
      after.heap.Perm (heap.heap ++ [{ weight := weight, data := data }]) ∧
      InOrder isMaxHeap after.heap ∧
      (after.optimizeNextSeriesPush = true → RowAbove isMaxHeap after.heap weight) := by
  obtain ⟨fits, ran, meaning⟩ := series_fits_ok build isMaxHeap heap weight
  rcases fits with _ | _
  · obtain ⟨after, pushed, perm, kept⟩ := push_ok build ordered weight data
    refine ⟨{ heap with heap := after }, ?_, perm, kept, ?_⟩
    · simp only [pushSeries, fresh, ran, pushed, bind, Except.bind, Bool.not_false, ↓reduceIte,
        Bool.false_eq_true]
    · intro flagged
      rw [fresh] at flagged
      contradiction
  · refine ⟨{ heap := heap.heap ++ [{ weight := weight, data := data }]
              optimizeNextSeriesPush := true }, ?_, List.Perm.refl _, ?_, ?_⟩
    · simp only [pushSeries, fresh, ran, bind, Except.bind, pure, Except.pure, Bool.not_false,
        ↓reduceIte]
    · exact row_above_in_order ordered (meaning rfl)
    · intro _
      exact row_above_appended (meaning rfl)

theorem push_series_going {heap : Heap weightType dataType}
    (going : heap.optimizeNextSeriesPush = true) (weight : weightType) (data : dataType) :
    pushSeries build isMaxHeap heap weight data =
      .ok { heap with heap := heap.heap ++ [{ weight := weight, data := data }] } := by
  simp only [pushSeries, going, Bool.not_true, Bool.false_eq_true, ↓reduceIte, pure, Except.pure]

end Pushing

section Popping

variable {nodes : List (HeapNode weightType dataType)} {startingIndex : Nat}

variable (isMaxHeap nodes startingIndex) in
/-- The node at the end may stand where `Pop` puts it, or does not get there. -/
def MayPop : Prop :=
  startingIndex = 0 ∨ startingIndex + 1 = nodes.length ∨
    ∀ upper last, weights nodes (Heaps.parent startingIndex) = some upper →
      weights nodes (nodes.length - 1) = some last → Upon isMaxHeap upper last

theorem refilled_sinking (ordered : InOrder isMaxHeap nodes)
    (within : nodes.length - 1 < nodes.length) (inside : startingIndex < nodes.length)
    (may : MayPop isMaxHeap nodes startingIndex) :
    Sinking (Upon isMaxHeap)
      (weights (refilled nodes startingIndex nodes[nodes.length - 1])) startingIndex := by
  have cells := weights_refilled inside nodes[nodes.length - 1]
  constructor
  · intro i upper lower positive other upperAt lowerAt
    have earlier := parent_lt positive
    rw [cells] at lowerAt
    split at lowerAt
    · next short =>
        rw [cells, if_pos (by omega), if_neg other] at upperAt
        by_cases own : i = startingIndex
        · subst i
          rw [if_pos rfl] at lowerAt
          cases lowerAt
          rcases may with root | last | fits
          · omega
          · omega
          · exact fits upper _ upperAt (weights_inside within)
        · rw [if_neg own] at lowerAt
          exact ordered i upper lower positive upperAt lowerAt
    · contradiction
  · intro i upper lower higher positive hangs upperAt lowerAt
    have above := parent_lt higher
    have below := parent_lt positive
    rw [cells] at lowerAt
    split at lowerAt
    · next short =>
        rw [if_neg (by omega)] at lowerAt
        rw [cells, if_pos (by omega), if_neg (by omega)] at upperAt
        have middle := weights_inside inside
        exact upon_trans isMaxHeap upper _ lower
          (ordered startingIndex upper _ higher upperAt middle)
          (ordered i _ lower positive (hangs ▸ middle) lowerAt)
    · contradiction

theorem pop_runs (inside : startingIndex < nodes.length)
    (within : nodes.length - 1 < nodes.length) (flag : Bool) :
    pop build isMaxHeap { heap := nodes, optimizeNextSeriesPush := flag } startingIndex =
      (siftDown build isMaxHeap nodes[nodes.length - 1].weight
        ((refilled nodes startingIndex nodes[nodes.length - 1]).length + 1) startingIndex
        (refilled nodes startingIndex nodes[nodes.length - 1])).map
          fun after => (nodes[startingIndex].data,
            { heap := after, optimizeNextSeriesPush := flag }) := by
  simp only [pop, size, node_ok build inside, node_ok build within, refilled, bind, Except.bind,
    pure, Except.pure]
  rfl

theorem pop_in_order (ordered : InOrder isMaxHeap nodes) (inside : startingIndex < nodes.length)
    (may : MayPop isMaxHeap nodes startingIndex) (flag : Bool) :
    ∃ after, pop build isMaxHeap { heap := nodes, optimizeNextSeriesPush := flag } startingIndex =
        .ok (nodes[startingIndex].data, { heap := after, optimizeNextSeriesPush := flag }) ∧
      (nodes[startingIndex] :: after).Perm nodes ∧ InOrder isMaxHeap after := by
  have within : nodes.length - 1 < nodes.length := by omega
  have own : ∀ here : startingIndex <
      (refilled nodes startingIndex nodes[nodes.length - 1]).length,
      (refilled nodes startingIndex nodes[nodes.length - 1])[startingIndex].weight =
        nodes[nodes.length - 1].weight := by
    intro here
    have found := weights_inside here
    rw [weights_refilled inside] at found
    split at found
    · rw [if_pos rfl] at found
      exact (Option.some.inj found).symm
    · contradiction
  obtain ⟨after, sifted, perm, kept⟩ := sift_down_ordered build isMaxHeap
    nodes[nodes.length - 1].weight
    ((refilled nodes startingIndex nodes[nodes.length - 1]).length + 1) startingIndex
    (refilled nodes startingIndex nodes[nodes.length - 1]) (Nat.succ_pos _) (by omega) own
    (refilled_sinking ordered within inside may)
  refine ⟨after, ?_, (perm.cons _).trans (refilled_perm inside within), kept⟩
  rw [pop_runs build inside within, sifted]
  rfl

theorem pop_out_of_order (ordered : InOrder isMaxHeap nodes)
    (inside : startingIndex < nodes.length) (mayNot : ¬ MayPop isMaxHeap nodes startingIndex)
    (flag : Bool) :
    ∃ after, pop build isMaxHeap { heap := nodes, optimizeNextSeriesPush := flag } startingIndex =
        .ok (nodes[startingIndex].data, { heap := after, optimizeNextSeriesPush := flag }) ∧
      ¬ InOrder isMaxHeap after := by
  have within : nodes.length - 1 < nodes.length := by omega
  have cells := weights_refilled inside nodes[nodes.length - 1]
  simp only [MayPop, not_or] at mayNot
  obtain ⟨notRoot, notLast, broken⟩ := mayNot
  push Not at broken
  obtain ⟨upper, last, upperAt, lastAt, wrong⟩ := broken
  cases (weights_inside within).symm.trans lastAt
  have positive : 0 < startingIndex := Nat.pos_of_ne_zero notRoot
  have earlier := parent_lt positive
  have onto : Upon isMaxHeap nodes[nodes.length - 1].weight upper := by
    apply upon_of_above
    simpa [Upon] using wrong
  have fits : ∀ i lower, 0 < i → Heaps.parent i = startingIndex →
      weights (refilled nodes startingIndex nodes[nodes.length - 1]) i = some lower →
      Upon isMaxHeap nodes[nodes.length - 1].weight lower := by
    intro i lower below hangs lowerAt
    have later := parent_lt below
    rw [cells] at lowerAt
    split at lowerAt
    · rw [if_neg (by omega)] at lowerAt
      have middle := weights_inside inside
      exact upon_trans isMaxHeap _ upper lower onto (upon_trans isMaxHeap upper _ lower
        (ordered startingIndex upper _ positive upperAt middle)
        (ordered i _ lower below (hangs ▸ middle) lowerAt))
    · contradiction
  refine ⟨refilled nodes startingIndex nodes[nodes.length - 1], ?_, ?_⟩
  · rw [pop_runs build inside within, sift_down_stays build isMaxHeap _ _ _ _ fits]
    rfl
  · intro kept
    apply wrong
    apply kept startingIndex upper nodes[nodes.length - 1].weight positive
    · rw [cells, if_pos (by omega), if_neg (by omega)]
      exact upperAt
    · rw [cells, if_pos (by omega), if_pos rfl]

end Popping

end DataStructures.Heap
