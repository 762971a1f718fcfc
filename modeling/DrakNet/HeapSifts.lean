import DrakNet.Heap
import DrakNet.Lists

/-!
The loops of a heap: both leave its nodes in order, and lose none. `Upon` is
the order of the weights that both kinds of heap go by.
-/

namespace DataStructures.Heap

open CString DrakNet Heaps

variable {weightType dataType : Type}

section Nodes

variable {nodes : List (HeapNode weightType dataType)}

def weights (nodes : List (HeapNode weightType dataType)) (i : Nat) : Option weightType :=
  nodes[i]?.map HeapNode.weight

theorem node_operator_at (build : Build) (i : Nat) :
    node build nodes i = List.operatorAt build nodes i := by
  unfold node List.operatorAt
  cases nodes[i]? <;> rfl

theorem node_ok (build : Build) {i : Nat} (inside : i < nodes.length) :
    node build nodes i = .ok nodes[i] := by
  rw [node_operator_at]
  exact List.operator_at_ok build inside

theorem read_inside {build : Build} {i : Nat} {Value : Type} {value : Value}
    {use : HeapNode weightType dataType → Except Failure Value}
    (ran : node build nodes i >>= use = .ok value) : i < nodes.length := by
  rw [node_operator_at] at ran
  exact List.read_inside ran

theorem parent_ok (build : Build) {i : Nat} (notZero : i ≠ 0) :
    parent build i = .ok ((i - 1) / 2) := by
  have checked := Queue.check_true build (decide_eq_true notZero)
  simp only [parent, checked, bind, Except.bind, pure, Except.pure]

theorem weights_inside {i : Nat} (inside : i < nodes.length) :
    weights nodes i = some nodes[i].weight := by
  simp [weights, inside]

theorem weights_outside {i : Nat} (outside : nodes.length ≤ i) : weights nodes i = none := by
  simp [weights, outside]

theorem weights_some {i : Nat} {weight : weightType} (here : weights nodes i = some weight) :
    ∃ inside : i < nodes.length, nodes[i].weight = weight := by
  by_cases inside : i < nodes.length
  · rw [weights_inside inside] at here
    exact ⟨inside, Option.some.inj here⟩
  · rw [weights_outside (Nat.le_of_not_lt inside)] at here
    contradiction

theorem weights_found {i : Nat} {weight : weightType} (here : weights nodes i = some weight) :
    ∀ inside : i < nodes.length, nodes[i].weight = weight := by
  obtain ⟨_, own⟩ := weights_some here
  intro inside
  exact own

theorem swap_ok (build : Build) {i j : Nat} (first : i < nodes.length) (second : j < nodes.length) :
    ∃ after, swap build nodes i j = .ok after ∧ after.Perm nodes ∧
      weights after = weights nodes ∘ Equiv.swap i j := by
  refine ⟨(nodes.set i nodes[j]).set j nodes[i], ?_, ?_, ?_⟩
  · simp only [swap, node_ok build first, node_ok build second, bind, Except.bind, pure,
      Except.pure]
  · exact List.set_set_perm first second
  · funext k
    by_cases atSecond : k = j
    · subst k
      simp [weights, first, second]
    · by_cases atFirst : k = i
      · subst k
        simp [weights, first, second, Ne.symm atSecond]
      · simp [weights, Ne.symm atSecond, Ne.symm atFirst,
          Equiv.swap_apply_of_ne_of_ne atFirst atSecond]

end Nodes

section Weights

variable [LinearOrder weightType] (isMaxHeap : Bool)

def Upon (a b : weightType) : Prop := above isMaxHeap b a = false

def InOrder (nodes : List (HeapNode weightType dataType)) : Prop :=
  Ordered (Upon isMaxHeap) (weights nodes)

theorem upon_refl (a : weightType) : Upon isMaxHeap a a := by
  cases isMaxHeap <;> simp [Upon, above]

theorem upon_trans (a b c : weightType) (first : Upon isMaxHeap a b) (second : Upon isMaxHeap b c) :
    Upon isMaxHeap a c := by
  cases isMaxHeap with
  | true =>
      simp only [Upon, above, ↓reduceIte, decide_eq_false_iff_not, not_lt] at *
      exact le_trans second first
  | false =>
      simp only [Upon, above, Bool.false_eq_true, ↓reduceIte, decide_eq_false_iff_not, not_lt] at *
      exact le_trans first second

theorem upon_of_above {a b : weightType} (higher : above isMaxHeap a b = true) :
    Upon isMaxHeap a b := by
  cases isMaxHeap with
  | true =>
      simp only [Upon, above, ↓reduceIte, decide_eq_true_eq, decide_eq_false_iff_not, not_lt] at *
      exact le_of_lt higher
  | false =>
      simp only [Upon, above, Bool.false_eq_true, ↓reduceIte, decide_eq_true_eq,
        decide_eq_false_iff_not, not_lt] at *
      exact le_of_lt higher

end Weights

section Sifting

variable [LinearOrder weightType] (build : Build) (isMaxHeap : Bool)

theorem sift_up_ordered (weight : weightType) (fuel currentIndex : Nat)
    (nodes : List (HeapNode weightType dataType)) (enough : currentIndex < fuel)
    (here : weights nodes currentIndex = some weight)
    (rising : Rising (Upon isMaxHeap) (weights nodes) currentIndex) :
    ∃ after, siftUp build isMaxHeap weight fuel currentIndex nodes = .ok after ∧
      after.Perm nodes ∧ InOrder isMaxHeap after := by
  induction fuel generalizing currentIndex nodes with
  | zero => omega
  | succ fuel ih =>
      by_cases zero : currentIndex = 0
      · refine ⟨nodes, ?_, List.Perm.refl nodes, rising_done rising ?_⟩
        · simp only [siftUp, zero, ↓reduceIte, pure, Except.pure]
        · intro upper lower positive
          omega
      · have positive : 0 < currentIndex := Nat.pos_of_ne_zero zero
        have shorter : (currentIndex - 1) / 2 < currentIndex := Heaps.parent_lt positive
        obtain ⟨inside, own⟩ := weights_some here
        have asserted := parent_ok build zero
        have upper := node_ok build (Nat.lt_trans shorter inside)
        have upperAt := weights_inside (Nat.lt_trans shorter inside)
        by_cases higher : above isMaxHeap weight nodes[(currentIndex - 1) / 2].weight = true
        · obtain ⟨swapped, ran, perm, cells⟩ :=
            swap_ok build inside (Nat.lt_trans shorter inside)
          have moved : Rising (Upon isMaxHeap) (weights swapped) ((currentIndex - 1) / 2) := by
            rw [cells]
            exact rising_step (upon_trans isMaxHeap) rising positive here upperAt
              (upon_of_above isMaxHeap higher)
          have still : weights swapped ((currentIndex - 1) / 2) = some weight := by
            rw [cells]
            simp [here]
          obtain ⟨after, lifted, permAfter, ordered⟩ :=
            ih ((currentIndex - 1) / 2) swapped (by omega) still moved
          refine ⟨after, ?_, permAfter.trans perm, ordered⟩
          simp only [siftUp, zero, ↓reduceIte, asserted, upper, higher, ran, lifted, bind,
            Except.bind]
        · refine ⟨nodes, ?_, List.Perm.refl nodes, rising_done rising ?_⟩
          · simp only [siftUp, zero, ↓reduceIte, asserted, upper, higher, bind, Except.bind, pure,
              Except.pure, Bool.false_eq_true]
          · intro above lower _ aboveAt lowerAt
            cases upperAt.symm.trans aboveAt
            cases here.symm.trans lowerAt
            simpa [Upon] using higher

theorem sift_down_stays (currentWeight : weightType) (fuel currentIndex : Nat)
    (nodes : List (HeapNode weightType dataType))
    (fits : ∀ i lower, 0 < i → Heaps.parent i = currentIndex → weights nodes i = some lower →
      Upon isMaxHeap currentWeight lower) :
    siftDown build isMaxHeap currentWeight (fuel + 1) currentIndex nodes = .ok nodes := by
  have below : ∀ i (inside : i < nodes.length), 0 < i → Heaps.parent i = currentIndex →
      above isMaxHeap nodes[i].weight currentWeight = false := by
    intro i inside positive hangs
    exact fits i _ positive hangs (weights_inside inside)
  have left : ∀ inside : leftChild currentIndex < nodes.length,
      above isMaxHeap nodes[leftChild currentIndex].weight currentWeight = false := by
    intro inside
    obtain ⟨positive, hangs⟩ := (children (leftChild currentIndex) currentIndex).mpr
      (Or.inl (by simp only [leftChild]; omega))
    exact below _ inside positive hangs
  have right : ∀ inside : rightChild currentIndex < nodes.length,
      above isMaxHeap nodes[rightChild currentIndex].weight currentWeight = false := by
    intro inside
    obtain ⟨positive, hangs⟩ := (children (rightChild currentIndex) currentIndex).mpr
      (Or.inr (by simp only [rightChild]; omega))
    exact below _ inside positive hangs
  by_cases noLeft : nodes.length ≤ leftChild currentIndex
  · simp only [siftDown, noLeft, ↓reduceIte, pure, Except.pure]
  · have leftIn : leftChild currentIndex < nodes.length := Nat.lt_of_not_le noLeft
    by_cases noRight : nodes.length ≤ rightChild currentIndex
    · simp only [siftDown, noLeft, noRight, ↓reduceIte, node_ok build leftIn, left leftIn, bind,
        Except.bind, pure, Except.pure, Bool.false_eq_true]
    · have rightIn : rightChild currentIndex < nodes.length := Nat.lt_of_not_le noRight
      simp only [siftDown, noLeft, noRight, ↓reduceIte, node_ok build leftIn,
        node_ok build rightIn, left leftIn, right rightIn, bind, Except.bind, pure, Except.pure,
        Bool.not_false, Bool.and_self]

theorem exchanged_sinking {nodes : List (HeapNode weightType dataType)} {currentIndex child : Nat}
    {currentWeight childWeight : weightType}
    (sinking : Sinking (Upon isMaxHeap) (weights nodes) currentIndex)
    (side : child = leftChild currentIndex ∨ child = rightChild currentIndex)
    (here : weights nodes currentIndex = some currentWeight)
    (there : weights nodes child = some childWeight)
    (higher : Upon isMaxHeap childWeight currentWeight)
    (first : ∀ i other, i = leftChild currentIndex ∨ i = rightChild currentIndex →
      weights nodes i = some other → Upon isMaxHeap childWeight other) :
    ∃ swapped, swap build nodes child currentIndex = .ok swapped ∧ swapped.Perm nodes ∧
      currentIndex < child ∧ weights swapped child = some currentWeight ∧
      Sinking (Upon isMaxHeap) (weights swapped) child := by
  have sides : ∀ i, i = leftChild currentIndex ∨ i = rightChild currentIndex ↔
      0 < i ∧ Heaps.parent i = currentIndex := by
    intro i
    rw [children]
    simp only [leftChild, rightChild, Nat.mul_comm]
  obtain ⟨positive, hangs⟩ := (sides child).mp side
  obtain ⟨inside, _⟩ := weights_some here
  obtain ⟨childIn, _⟩ := weights_some there
  obtain ⟨swapped, ran, perm, cells⟩ := swap_ok build childIn inside
  refine ⟨swapped, ran, perm, hangs ▸ parent_lt positive, ?_, ?_⟩
  · rw [cells]
    simp [here]
  · rw [cells]
    apply sinking_step sinking positive hangs here there higher
    intro i other one under
    exact first i other ((sides i).mpr ⟨one, under⟩)

theorem child_above {nodes : List (HeapNode weightType dataType)} {currentIndex : Nat}
    {currentWeight : weightType}
    (stuck : ¬ ∀ i lower, 0 < i → Heaps.parent i = currentIndex → weights nodes i = some lower →
      Upon isMaxHeap currentWeight lower) :
    (nodes.length ≤ rightChild currentIndex ∧ ∃ inside : leftChild currentIndex < nodes.length,
      above isMaxHeap nodes[leftChild currentIndex].weight currentWeight = true) ∨
    (∃ (left : leftChild currentIndex < nodes.length)
      (right : rightChild currentIndex < nodes.length),
      above isMaxHeap nodes[leftChild currentIndex].weight currentWeight = true ∨
        above isMaxHeap nodes[rightChild currentIndex].weight currentWeight = true) := by
  push Not at stuck
  obtain ⟨i, lower, positive, hangs, found, higher⟩ := stuck
  obtain ⟨inside, own⟩ := weights_some found
  have raised : above isMaxHeap nodes[i].weight currentWeight = true := by
    rw [own]
    simpa [Upon] using higher
  rcases (children i currentIndex).mp ⟨positive, hangs⟩ with left | right
  · have same : i = leftChild currentIndex := by
      simp only [leftChild]
      omega
    subst same
    by_cases noRight : nodes.length ≤ rightChild currentIndex
    · exact Or.inl ⟨noRight, inside, raised⟩
    · exact Or.inr ⟨inside, Nat.lt_of_not_le noRight, Or.inl raised⟩
  · have same : i = rightChild currentIndex := by
      simp only [rightChild]
      omega
    subst same
    have leftIn : leftChild currentIndex < nodes.length := by
      simp only [leftChild, rightChild] at inside ⊢
      omega
    exact Or.inr ⟨leftIn, inside, Or.inr raised⟩

theorem child_first {nodes : List (HeapNode weightType dataType)} {currentIndex : Nat}
    {currentWeight : weightType} (leftIn : leftChild currentIndex < nodes.length)
    (rightIn : rightChild currentIndex < nodes.length)
    (higher : above isMaxHeap nodes[leftChild currentIndex].weight currentWeight = true ∨
      above isMaxHeap nodes[rightChild currentIndex].weight currentWeight = true) :
    ∃ (child : Nat) (inside : child < nodes.length),
      (child = leftChild currentIndex ∨ child = rightChild currentIndex) ∧
      Upon isMaxHeap nodes[child].weight currentWeight ∧
      (∀ i other, i = leftChild currentIndex ∨ i = rightChild currentIndex →
        weights nodes i = some other → Upon isMaxHeap nodes[child].weight other) ∧
      ∀ fuel, siftDown build isMaxHeap currentWeight (fuel + 1) currentIndex nodes =
        (swap build nodes child currentIndex).bind
          (siftDown build isMaxHeap currentWeight fuel child) := by
  have further : (!above isMaxHeap nodes[leftChild currentIndex].weight currentWeight &&
      !above isMaxHeap nodes[rightChild currentIndex].weight currentWeight) = false := by
    rcases higher with one | one <;> simp [one]
  have leftFound := weights_inside leftIn
  have rightFound := weights_inside rightIn
  by_cases leftFirst : above isMaxHeap nodes[leftChild currentIndex].weight
      nodes[rightChild currentIndex].weight = true
  · have onto := upon_of_above isMaxHeap leftFirst
    refine ⟨leftChild currentIndex, leftIn, Or.inl rfl, ?_, ?_, ?_⟩
    · rcases higher with left | right
      · exact upon_of_above isMaxHeap left
      · exact upon_trans isMaxHeap _ _ _ onto (upon_of_above isMaxHeap right)
    · rintro i other (rfl | rfl) found
      · cases leftFound.symm.trans found
        exact upon_refl isMaxHeap _
      · cases rightFound.symm.trans found
        exact onto
    · intro fuel
      simp only [siftDown, Nat.not_le.mpr leftIn, Nat.not_le.mpr rightIn, ↓reduceIte,
        node_ok build leftIn, node_ok build rightIn, further, leftFirst, bind, Except.bind,
        Bool.false_eq_true]
  · have onto : Upon isMaxHeap nodes[rightChild currentIndex].weight
        nodes[leftChild currentIndex].weight := by
      simpa [Upon] using leftFirst
    refine ⟨rightChild currentIndex, rightIn, Or.inr rfl, ?_, ?_, ?_⟩
    · rcases higher with left | right
      · exact upon_trans isMaxHeap _ _ _ onto (upon_of_above isMaxHeap left)
      · exact upon_of_above isMaxHeap right
    · rintro i other (rfl | rfl) found
      · cases leftFound.symm.trans found
        exact onto
      · cases rightFound.symm.trans found
        exact upon_refl isMaxHeap _
    · intro fuel
      simp only [siftDown, Nat.not_le.mpr leftIn, Nat.not_le.mpr rightIn, ↓reduceIte,
        node_ok build leftIn, node_ok build rightIn, further, leftFirst, bind, Except.bind,
        Bool.false_eq_true]

theorem sift_down_ordered (currentWeight : weightType) (fuel currentIndex : Nat)
    (nodes : List (HeapNode weightType dataType)) (started : 0 < fuel)
    (enough : nodes.length < currentIndex + fuel)
    (here : ∀ inside : currentIndex < nodes.length, nodes[currentIndex].weight = currentWeight)
    (sinking : Sinking (Upon isMaxHeap) (weights nodes) currentIndex) :
    ∃ after, siftDown build isMaxHeap currentWeight fuel currentIndex nodes = .ok after ∧
      after.Perm nodes ∧ InOrder isMaxHeap after := by
  induction fuel generalizing currentIndex nodes with
  | zero => omega
  | succ fuel ih =>
      by_cases fits : ∀ i lower, 0 < i → Heaps.parent i = currentIndex →
          weights nodes i = some lower → Upon isMaxHeap currentWeight lower
      · refine ⟨nodes, sift_down_stays build isMaxHeap currentWeight fuel currentIndex nodes fits,
          List.Perm.refl nodes, sinking_done sinking ?_⟩
        intro i upper lower positive hangs upperAt lowerAt
        obtain ⟨inside, own⟩ := weights_some upperAt
        rw [← own, here inside]
        exact fits i lower positive hangs lowerAt
      · obtain ⟨noRight, leftIn, higher⟩ | ⟨leftIn, rightIn, higher⟩ :=
          child_above isMaxHeap fits
        · have inside : currentIndex < nodes.length := by
            simp only [leftChild] at leftIn
            omega
          have own := (weights_inside inside).trans (congrArg some (here inside))
          have only : ∀ i other, i = leftChild currentIndex ∨ i = rightChild currentIndex →
              weights nodes i = some other → Upon isMaxHeap nodes[leftChild currentIndex].weight
                other := by
            rintro i other (rfl | rfl) found
            · cases (weights_inside leftIn).symm.trans found
              exact upon_refl isMaxHeap _
            · rw [weights_outside noRight] at found
              contradiction
          obtain ⟨swapped, ran, perm, _, _, sunk⟩ := exchanged_sinking build isMaxHeap sinking
            (Or.inl rfl) own (weights_inside leftIn) (upon_of_above isMaxHeap higher) only
          refine ⟨swapped, ?_, perm, sinking_done sunk ?_⟩
          · simp only [siftDown, Nat.not_le.mpr leftIn, noRight, ↓reduceIte,
              node_ok build leftIn, higher, ran, bind, Except.bind]
          · intro i upper lower positive hangs _ lowerAt
            obtain ⟨within, _⟩ := weights_some lowerAt
            have later := parent_lt positive
            rw [perm.length_eq] at within
            simp only [leftChild, rightChild] at hangs noRight
            omega
        · have inside : currentIndex < nodes.length := by
            simp only [leftChild] at leftIn
            omega
          have own := (weights_inside inside).trans (congrArg some (here inside))
          obtain ⟨child, childIn, side, onto, first, goesOn⟩ :=
            child_first build isMaxHeap leftIn rightIn higher
          obtain ⟨swapped, ran, perm, deeper, moved, sunk⟩ := exchanged_sinking build isMaxHeap
            sinking side own (weights_inside childIn) onto first
          obtain ⟨after, sifted, permAfter, ordered⟩ := ih child swapped (by omega)
            (by rw [perm.length_eq]; omega) (weights_found moved) sunk
          refine ⟨after, ?_, permAfter.trans perm, ordered⟩
          rw [goesOn, ran]
          exact sifted

end Sifting

end DataStructures.Heap
