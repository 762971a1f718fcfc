import DrakNet.Bisection
import DrakNet.Lists

/-!
`DataStructures::OrderedList`, with the calls `RangeList` makes of it. The
comparison function is a parameter of each call, as in the source. Indices are
natural numbers for `unsigned`, the bounds of the search integers for `int`,
with fewer than 2^31 elements; one past the list is a failure in either build.
-/

namespace DataStructures.OrderedList

open CString DrakNet Bisections

variable {keyType dataType : Type} (build : Build) (cf : keyType → dataType → Int)

/-- `while (1)`. -/
def search (orderedList : List dataType) (key : keyType) :
    Nat → Int → Int → Int → Except Failure (Nat × Bool)
  | 0, _, _, _ => .error .endless
  | fuel + 1, lowerBound, upperBound, index => do
      let res := cf key (← List.operatorAt build orderedList index.toNat)
      if res = 0 then
        return (index.toNat, true)
      else
        let upperBound := if res < 0 then index - 1 else upperBound
        let lowerBound := if res < 0 then lowerBound else index + 1
        let index := lowerBound + (upperBound - lowerBound).tdiv 2
        if upperBound < lowerBound then
          -- no match
          return (lowerBound.toNat, false)
        else if index < 0 ∨ orderedList.length ≤ index then
          Queue.check build false
          return (0, false)
        else
          search orderedList key fuel lowerBound upperBound index

def getIndexFromKey (orderedList : List dataType) (key : keyType) :
    Except Failure (Nat × Bool) :=
  if orderedList.length = 0 then
    .ok (0, false)
  else
    search build cf orderedList key (orderedList.length + 1) 0 (orderedList.length - 1)
      (orderedList.length / 2)

/-- The index is `none` where the source returns `(unsigned)-1`. -/
def insert (orderedList : List dataType) (key : keyType) (data : dataType)
    (assertOnDuplicate : Bool) : Except Failure (Option Nat × List dataType) := do
  let (index, objectExists) ← getIndexFromKey build cf orderedList key
  if objectExists then
    Queue.check build (!assertOnDuplicate)
    return (none, orderedList)
  else if orderedList.length ≤ index then
    return (some orderedList.length, orderedList ++ [data])
  else
    let orderedList ← List.insertAt build orderedList data index
    return (some index, orderedList)

variable {orderedList : List dataType} {key : keyType}

section Searching

variable (orderedList key) in
def sign (i : Nat) : Int := (orderedList[i]?.map (cf key)).getD 0

/-- The list is in the order of the comparison, as far as the key can tell. -/
def Arranged (orderedList : List dataType) (key : keyType) : Prop :=
  Falling (sign cf orderedList key) orderedList.length

variable {cf}

theorem sign_inside (key : keyType) {i : Nat} (inside : i < orderedList.length) :
    sign cf orderedList key i = cf key orderedList[i] := by
  simp [sign, inside]

theorem search_ok (arranged : Arranged cf orderedList key) (fuel : Nat)
    (lowerBound upperBound index : Int) (enough : upperBound - lowerBound + 1 < fuel)
    (low : lowerBound ≤ index) (high : index ≤ upperBound)
    (bracket : Bracket (sign cf orderedList key) orderedList.length lowerBound upperBound) :
    ∃ place found, search build cf orderedList key fuel lowerBound upperBound index =
        .ok (place, found) ∧
      Located (sign cf orderedList key) orderedList.length place found := by
  induction fuel generalizing lowerBound upperBound index with
  | zero => omega
  | succ fuel ih =>
      have start := bracket.start
      have stop := bracket.stop
      have inside : index.toNat < orderedList.length := by omega
      have compared : sign cf orderedList key index.toNat = _ := sign_inside key inside
      have read := List.operator_at_ok build inside
      rcases Int.lt_trichotomy (cf key orderedList[index.toNat]) 0 with smaller | same | greater
      · have half := left_half arranged bracket low high (compared ▸ smaller)
        by_cases closed : index - 1 < lowerBound
        · refine ⟨lowerBound.toNat, false, ?_, bracket_closed half closed⟩
          simp only [search, read, bind, Except.bind, pure, Except.pure, Int.ne_of_lt smaller,
            smaller, closed, ↓reduceIte]
        · obtain ⟨first, last⟩ := middle_inside (Int.not_lt.mp closed)
          obtain ⟨place, found, ran, located⟩ := ih lowerBound (index - 1)
            (lowerBound + (index - 1 - lowerBound).tdiv 2) (by omega) first last half
          refine ⟨place, found, ?_, located⟩
          have within : ¬ (lowerBound + (index - 1 - lowerBound).tdiv 2 < 0 ∨
              orderedList.length ≤ lowerBound + (index - 1 - lowerBound).tdiv 2) := by omega
          simp only [search, read, bind, Except.bind, Int.ne_of_lt smaller, smaller, closed, within,
            ran, ↓reduceIte]
      · refine ⟨index.toNat, true, ?_, bracket_hit bracket low high (compared.trans same)⟩
        simp only [search, read, bind, Except.bind, pure, Except.pure, same, ↓reduceIte]
      · have half := right_half arranged bracket low high (compared ▸ greater)
        have notSmaller := Int.not_lt.mpr (Int.le_of_lt greater)
        have notSame := (Int.ne_of_lt greater).symm
        by_cases closed : upperBound < index + 1
        · refine ⟨(index + 1).toNat, false, ?_, bracket_closed half closed⟩
          simp only [search, read, bind, Except.bind, pure, Except.pure, notSame,
            notSmaller, closed, ↓reduceIte]
        · obtain ⟨first, last⟩ := middle_inside (Int.not_lt.mp closed)
          obtain ⟨place, found, ran, located⟩ := ih (index + 1) upperBound
            (index + 1 + (upperBound - (index + 1)).tdiv 2) (by omega) first last half
          refine ⟨place, found, ?_, located⟩
          have within : ¬ (index + 1 + (upperBound - (index + 1)).tdiv 2 < 0 ∨
              orderedList.length ≤ index + 1 + (upperBound - (index + 1)).tdiv 2) := by omega
          simp only [search, read, bind, Except.bind, notSame, notSmaller, closed, within,
            ran, ↓reduceIte]

theorem get_index_from_key_ok (arranged : Arranged cf orderedList key) :
    ∃ place found, getIndexFromKey build cf orderedList key = .ok (place, found) ∧
      Located (sign cf orderedList key) orderedList.length place found := by
  by_cases none : orderedList.length = 0
  · refine ⟨0, false, ?_, ?_⟩
    · simp only [getIndexFromKey, none, ↓reduceIte]
    · refine ⟨nofun, Nat.zero_le _, ?_, ?_⟩
      · intro _ i early
        omega
      · intro _ i _ inside
        omega
  · obtain ⟨place, found, ran, located⟩ := search_ok build arranged (orderedList.length + 1) 0
      (orderedList.length - 1) (orderedList.length / 2) (by omega) (by omega) (by omega)
      bracket_start
    refine ⟨place, found, ?_, located⟩
    simp only [getIndexFromKey, none, ↓reduceIte]
    exact ran

theorem arranged_of_pairwise (ordered : orderedList.Pairwise fun first later =>
    (cf key first < 0 → cf key later < 0) ∧ (0 < cf key later → 0 < cf key first)) :
    Arranged cf orderedList key := by
  rw [List.pairwise_iff_getElem] at ordered
  constructor
  · intro i j earlier inside smaller
    rw [sign_inside key (Nat.lt_trans earlier inside)] at smaller
    rw [sign_inside key inside]
    exact (ordered i j _ inside earlier).1 smaller
  · intro i j earlier inside greater
    rw [sign_inside key inside] at greater
    rw [sign_inside key (Nat.lt_trans earlier inside)]
    exact (ordered i j _ inside earlier).2 greater

inductive Split (cf : keyType → dataType → Int) (key : keyType) :
    List dataType → Nat → Bool → Prop where
  | hit (before : List dataType) (here : dataType) (after : List dataType) : cf key here = 0 →
      Split cf key (before ++ here :: after) before.length true
  | miss (before after : List dataType) : (∀ item ∈ before, 0 < cf key item) →
      (∀ item ∈ after, cf key item < 0) → Split cf key (before ++ after) before.length false

theorem located_split {place : Nat} {found : Bool}
    (located : Located (sign cf orderedList key) orderedList.length place found) :
    Split cf key orderedList place found := by
  have inside := located.inside
  have length : (orderedList.take place).length = place := by
    rw [List.length_take]
    omega
  cases found with
  | true =>
      obtain ⟨within, same⟩ := located.hit rfl
      rw [sign_inside key within] at same
      have split := Split.hit (orderedList.take place) orderedList[place]
        (orderedList.drop (place + 1)) same
      rwa [length, List.getElem_cons_drop, List.take_append_drop] at split
  | false =>
      have split : Split cf key (orderedList.take place ++ orderedList.drop place)
          (orderedList.take place).length false := by
        apply Split.miss
        · intro item member
          obtain ⟨i, early, rfl⟩ := List.mem_iff_getElem.mp member
          have within : i < orderedList.length := by omega
          have greater := located.before rfl i (by omega)
          rw [sign_inside key within] at greater
          rwa [List.getElem_take]
        · intro item member
          obtain ⟨i, late, rfl⟩ := List.mem_iff_getElem.mp member
          rw [List.length_drop] at late
          have within : place + i < orderedList.length := by omega
          have smaller := located.beyond rfl (place + i) (by omega) within
          rw [sign_inside key within] at smaller
          rwa [List.getElem_drop]
      rwa [length, List.take_append_drop] at split

theorem insert_at_end (data : dataType) (assertOnDuplicate : Bool)
    (ran : getIndexFromKey build cf orderedList key = .ok (orderedList.length, false)) :
    insert build cf orderedList key data assertOnDuplicate =
      .ok (some orderedList.length, orderedList ++ [data]) := by
  simp only [insert, ran, bind, Except.bind, pure, Except.pure, Bool.false_eq_true, ↓reduceIte,
    Nat.le_refl]

end Searching

end DataStructures.OrderedList
