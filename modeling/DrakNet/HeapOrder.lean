import Mathlib.Data.Nat.Basic
import Mathlib.Logic.Equiv.Basic

/-!
Binary heaps by their cells. Cell `i` has its parent at `(i - 1) / 2`, and
`upon upper lower` says which keys may stand above which. A key on its way up
or down is at a hole: all other pairs are in order, and those on both sides of
the hole are in order with each other.
-/

namespace Heaps

variable {Key : Type}

def parent (i : Nat) : Nat := (i - 1) / 2

theorem parent_lt {i : Nat} (positive : 0 < i) : parent i < i := by
  unfold parent
  omega

theorem children (i hole : Nat) :
    (0 < i ∧ parent i = hole) ↔ (i = 2 * hole + 1 ∨ i = 2 * hole + 2) := by
  unfold parent
  omega

section Definitions

variable (upon : Key → Key → Prop) (cells : Nat → Option Key)

def Ordered : Prop :=
  ∀ i upper lower, 0 < i → cells (parent i) = some upper → cells i = some lower → upon upper lower

/-- What hangs below the hole may stand below what the hole hangs on. -/
def Across (hole : Nat) : Prop :=
  ∀ i upper lower, 0 < hole → 0 < i → parent i = hole → cells (parent hole) = some upper →
    cells i = some lower → upon upper lower

structure Rising (hole : Nat) : Prop where
  others : ∀ i upper lower, 0 < i → i ≠ hole → cells (parent i) = some upper →
    cells i = some lower → upon upper lower
  across : Across upon cells hole

structure Sinking (hole : Nat) : Prop where
  others : ∀ i upper lower, 0 < i → parent i ≠ hole → cells (parent i) = some upper →
    cells i = some lower → upon upper lower
  across : Across upon cells hole

end Definitions

variable {upon : Key → Key → Prop} {cells : Nat → Option Key} {hole : Nat} {key : Key}

/-- The key at the hole goes up where it may stand above its parent. -/
theorem rising_step (trans : ∀ a b c, upon a b → upon b c → upon a c)
    (rising : Rising upon cells hole) (positive : 0 < hole) {above : Key}
    (here : cells hole = some key) (there : cells (parent hole) = some above)
    (exchanged : upon key above) :
    Rising upon (cells ∘ Equiv.swap hole (parent hole)) (parent hole) := by
  have shorter := parent_lt positive
  have atHole : (cells ∘ Equiv.swap hole (parent hole)) hole = some above := by
    simp [there]
  have atParent : (cells ∘ Equiv.swap hole (parent hole)) (parent hole) = some key := by
    simp [here]
  have elsewhere : ∀ i, i ≠ hole → i ≠ parent hole →
      (cells ∘ Equiv.swap hole (parent hole)) i = cells i := by
    intro i first second
    simp [Equiv.swap_apply_of_ne_of_ne first second]
  constructor
  · intro i upper lower child other upperAt lowerAt
    by_cases own : i = hole
    · subst i
      rw [atParent] at upperAt
      rw [atHole] at lowerAt
      cases upperAt
      cases lowerAt
      exact exchanged
    · rw [elsewhere i own other] at lowerAt
      by_cases below : parent i = hole
      · rw [below, atHole] at upperAt
        cases upperAt
        exact rising.across i above lower positive child below there lowerAt
      · by_cases beside : parent i = parent hole
        · rw [beside, atParent] at upperAt
          cases upperAt
          exact trans key above lower exchanged
            (rising.others i above lower child own (beside ▸ there) lowerAt)
        · rw [elsewhere (parent i) below beside] at upperAt
          exact rising.others i upper lower child own upperAt lowerAt
  · intro i upper lower higher child below upperAt lowerAt
    have further := parent_lt higher
    rw [elsewhere (parent (parent hole)) (by omega) (by omega)] at upperAt
    have onto := rising.others (parent hole) upper above higher (by omega) upperAt there
    by_cases own : i = hole
    · subst i
      rw [atHole] at lowerAt
      cases lowerAt
      exact onto
    · have later := parent_lt child
      rw [elsewhere i own (by omega)] at lowerAt
      exact trans upper above lower onto
        (rising.others i above lower child own (below ▸ there) lowerAt)

theorem rising_done (rising : Rising upon cells hole)
    (fits : ∀ upper lower, 0 < hole → cells (parent hole) = some upper →
      cells hole = some lower → upon upper lower) : Ordered upon cells := by
  intro i upper lower child upperAt lowerAt
  by_cases own : i = hole
  · subst i
    exact fits upper lower child upperAt lowerAt
  · exact rising.others i upper lower child own upperAt lowerAt

/-- The key at the hole goes down where the first of its children may stand
above it. -/
theorem sinking_step (sinking : Sinking upon cells hole) {child : Nat} {below : Key}
    (positive : 0 < child) (hangs : parent child = hole) (here : cells hole = some key)
    (there : cells child = some below) (exchanged : upon below key)
    (first : ∀ i other, 0 < i → parent i = hole → cells i = some other → upon below other) :
    Sinking upon (cells ∘ Equiv.swap child hole) child := by
  have deeper := parent_lt positive
  have atHole : (cells ∘ Equiv.swap child hole) hole = some below := by
    simp [there]
  have atChild : (cells ∘ Equiv.swap child hole) child = some key := by
    simp [here]
  have elsewhere : ∀ i, i ≠ child → i ≠ hole →
      (cells ∘ Equiv.swap child hole) i = cells i := by
    intro i one two
    simp [Equiv.swap_apply_of_ne_of_ne one two]
  constructor
  · intro i upper lower lowerChild other upperAt lowerAt
    have later := parent_lt lowerChild
    by_cases under : parent i = hole
    · rw [under, atHole] at upperAt
      cases upperAt
      by_cases own : i = child
      · subst i
        rw [atChild] at lowerAt
        cases lowerAt
        exact exchanged
      · rw [elsewhere i own (by omega)] at lowerAt
        exact first i lower lowerChild under lowerAt
    · rw [elsewhere (parent i) other under] at upperAt
      by_cases own : i = hole
      · subst i
        rw [atHole] at lowerAt
        cases lowerAt
        exact sinking.across child upper below lowerChild positive hangs upperAt there
      · have apart : i ≠ child := by
          rintro rfl
          exact under hangs
        rw [elsewhere i apart own] at lowerAt
        exact sinking.others i upper lower lowerChild under upperAt lowerAt
  · intro i upper lower _ lowerChild under upperAt lowerAt
    have later := parent_lt lowerChild
    rw [hangs, atHole] at upperAt
    cases upperAt
    rw [elsewhere i (by omega) (by omega)] at lowerAt
    exact sinking.others i below lower lowerChild (by omega) (under ▸ there) lowerAt

theorem sinking_done (sinking : Sinking upon cells hole)
    (fits : ∀ i upper lower, 0 < i → parent i = hole → cells hole = some upper →
      cells i = some lower → upon upper lower) : Ordered upon cells := by
  intro i upper lower child upperAt lowerAt
  by_cases under : parent i = hole
  · exact fits i upper lower child under (under ▸ upperAt) lowerAt
  · exact sinking.others i upper lower child under upperAt lowerAt

theorem root_first (refl : ∀ a, upon a a) (trans : ∀ a b c, upon a b → upon b c → upon a c)
    (ordered : Ordered upon cells) (solid : ∀ i, (cells i).isSome → (cells (parent i)).isSome)
    {root : Key} (top : cells 0 = some root) (i : Nat) (lower : Key)
    (lowerAt : cells i = some lower) : upon root lower := by
  induction i using Nat.strong_induction_on generalizing lower with
  | h i ih =>
      by_cases zero : i = 0
      · subst i
        rw [top] at lowerAt
        cases lowerAt
        exact refl root
      · have positive : 0 < i := Nat.pos_of_ne_zero zero
        obtain ⟨upper, upperAt⟩ := Option.isSome_iff_exists.mp
          (solid i (Option.isSome_of_eq_some lowerAt))
        exact trans root upper lower (ih (parent i) (parent_lt positive) upper upperAt)
          (ordered i upper lower positive upperAt lowerAt)

end Heaps
