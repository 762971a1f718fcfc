import Mathlib.Data.List.Basic

/-!
Bisection by the sign of a comparison: `sign i` is positive before the place
that is looked for, negative after it, and 0 on a hit.
-/

namespace Bisections

structure Falling (sign : Nat → Int) (count : Nat) : Prop where
  low : ∀ i j, i < j → j < count → sign i < 0 → sign j < 0
  high : ∀ i j, i < j → j < count → 0 < sign j → 0 < sign i

structure Bracket (sign : Nat → Int) (count : Nat) (lower upper : Int) : Prop where
  start : 0 ≤ lower
  stop : upper < count
  joined : lower ≤ upper + 1
  before : ∀ i : Nat, i < lower → 0 < sign i
  beyond : ∀ i : Nat, upper < i → i < count → sign i < 0

structure Located (sign : Nat → Int) (count : Nat) (place : Nat) (found : Bool) : Prop where
  hit : found = true → place < count ∧ sign place = 0
  inside : place ≤ count
  before : found = false → ∀ i, i < place → 0 < sign i
  beyond : found = false → ∀ i, place ≤ i → i < count → sign i < 0

variable {sign : Nat → Int} {count : Nat} {lower upper index : Int}

theorem bracket_start : Bracket sign count 0 (count - 1) := by
  constructor
  · omega
  · omega
  · omega
  · intro i early
    omega
  · intro i late inside
    omega

theorem left_half (falling : Falling sign count) (bracket : Bracket sign count lower upper)
    (low : lower ≤ index) (high : index ≤ upper) (smaller : sign index.toNat < 0) :
    Bracket sign count lower (index - 1) := by
  have inside := bracket.stop
  have start := bracket.start
  refine ⟨start, by omega, by omega, bracket.before, ?_⟩
  intro i late within
  by_cases own : i = index.toNat
  · rw [own]
    exact smaller
  · exact falling.low index.toNat i (by omega) within smaller

theorem right_half (falling : Falling sign count) (bracket : Bracket sign count lower upper)
    (low : lower ≤ index) (high : index ≤ upper) (greater : 0 < sign index.toNat) :
    Bracket sign count (index + 1) upper := by
  have inside := bracket.stop
  have start := bracket.start
  refine ⟨by omega, inside, by omega, ?_, bracket.beyond⟩
  intro i early
  by_cases own : i = index.toNat
  · rw [own]
    exact greater
  · exact falling.high i index.toNat (by omega) (by omega) greater

theorem middle_inside (some : lower ≤ upper) :
    lower ≤ lower + (upper - lower).tdiv 2 ∧ lower + (upper - lower).tdiv 2 ≤ upper := by
  rw [Int.tdiv_eq_ediv_of_nonneg (by omega)]
  omega

theorem bracket_hit (bracket : Bracket sign count lower upper) (low : lower ≤ index)
    (high : index ≤ upper) (same : sign index.toNat = 0) :
    Located sign count index.toNat true := by
  have inside := bracket.stop
  have start := bracket.start
  refine ⟨fun _ => ⟨by omega, same⟩, by omega, nofun, nofun⟩

theorem bracket_closed (bracket : Bracket sign count lower upper) (closed : upper < lower) :
    Located sign count lower.toNat false := by
  have start := bracket.start
  have stop := bracket.stop
  have joined := bracket.joined
  refine ⟨nofun, by omega, ?_, ?_⟩
  · intro _ i early
    exact bracket.before i (by omega)
  · intro _ i late inside
    exact bracket.beyond i (by omega) inside

end Bisections
