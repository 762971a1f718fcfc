import Mathlib.Data.Set.Insert
import DrakNet.RangeCalls
import DrakNet.Runs

/-!
A range list over sequences of calls. It always holds the numbers that were put
in; the ranges it holds them in need not stay apart. `Scatters` says exactly
which insertions bring two of them together.
-/

namespace DataStructures.RangeList

open CString DrakNet Runs

variable {width : Nat} {index : BitVec width} {ranges after : List (RangeNode width)}

section Ranked

variable {order : RangeNode width → RangeNode width → Prop}
  {before rest : List (RangeNode width)} {here : RangeNode width}

theorem ranked_around (ranked : Ranked order (before ++ here :: rest)) :
    (∀ range ∈ before, order range here) ∧ here.minIndex.toNat ≤ here.maxIndex.toNat ∧
      ∀ range ∈ rest, order here range := by
  obtain ⟨_, late, across⟩ := List.pairwise_append.mp ranked.ordered
  refine ⟨?_, ranked.valid here (by simp), (List.pairwise_cons.mp late).1⟩
  intro range member
  exact across range member here List.mem_cons_self

theorem ranked_replace (old : List (RangeNode width))
    (ranked : Ranked order (before ++ (old ++ rest)))
    (valid : here.minIndex.toNat ≤ here.maxIndex.toNat)
    (left : ∀ range ∈ before, order range here) (right : ∀ range ∈ rest, order here range) :
    Ranked order (before ++ here :: rest) := by
  obtain ⟨early, late, across⟩ := List.pairwise_append.mp ranked.ordered
  constructor
  · intro range member
    rcases List.mem_append.mp member with first | later
    · exact ranked.valid range (List.mem_append_left _ first)
    · rcases List.mem_cons.mp later with rfl | kept
      · exact valid
      · exact ranked.valid range (List.mem_append_right before (List.mem_append_right old kept))
  · refine List.pairwise_append.mpr
      ⟨early, List.pairwise_cons.mpr ⟨right, (List.pairwise_append.mp late).2.1⟩, ?_⟩
    intro first member range following
    rcases List.mem_cons.mp following with rfl | kept
    · exact left first member
    · exact across first member range (List.mem_append_right old kept)

theorem ranked_concat (ranked : Ranked order before)
    (valid : here.minIndex.toNat ≤ here.maxIndex.toNat)
    (left : ∀ range ∈ before, order range here) : Ranked order (before ++ [here]) := by
  refine ranked_replace [] ?_ valid left nofun
  simpa using ranked

theorem ranked_nil : Ranked order ([] : List (RangeNode width)) :=
  ⟨nofun, List.Pairwise.nil⟩

end Ranked

section Sound

theorem inserted_sound (sound : Sound ranges) (inserted : Inserted index ranges after) :
    Sound after := by
  cases inserted with
  | first => exact ranked_concat ranked_nil (Nat.le_refl _) nofun
  | extend before last next =>
      obtain ⟨early, valid, _⟩ := ranked_around sound
      refine ranked_replace [last] sound ?_ early nofun
      simp only
      omega
  | append before last below far =>
      refine ranked_concat sound (Nat.le_refl _) ?_
      intro range member
      exact Nat.le_of_lt (below range member)
  | known => exact sound
  | zero before here rest zero start =>
      obtain ⟨early, valid, late⟩ := ranked_around sound
      subst start
      refine ranked_replace [] sound (Nat.le_refl _) early ?_
      intro range member
      rcases List.mem_cons.mp member with rfl | later
      · exact Nat.le_refl _
      · exact late range later
  | between before here rest below above =>
      obtain ⟨early, valid, late⟩ := ranked_around sound
      refine ranked_replace [] sound (Nat.le_refl _) ?_ ?_
      · intro range member
        exact Nat.le_of_lt (below range member)
      · intro range member
        rcases List.mem_cons.mp member with rfl | later
        · simp only
          omega
        · have behind := late range later
          simp only
          omega
  | lower before here rest below next apart =>
      obtain ⟨early, valid, late⟩ := ranked_around sound
      refine ranked_replace [here] sound ?_ ?_ ?_
      · simp only
        omega
      · intro range member
        exact Nat.le_of_lt (below range member)
      · intro range later
        have behind := late range later
        simp only
        omega
  | join before left here rest below next touching =>
      obtain ⟨early, valid, late⟩ := ranked_around sound
      have hereValid := sound.valid here (by simp)
      refine ranked_replace [left, here] sound ?_ early ?_
      · simp only
        omega
      · intro range later
        exact late range (List.mem_cons_of_mem here later)

def covered (ranges : List (RangeNode width)) : Set (BitVec width) :=
  { i | ∃ range ∈ ranges, range.minIndex.toNat ≤ i.toNat ∧ i.toNat ≤ range.maxIndex.toNat }

theorem covered_nil (i : BitVec width) : ¬ i ∈ covered [] := by
  rintro ⟨range, member, _⟩
  contradiction

theorem covered_append (i : BitVec width) (before rest : List (RangeNode width)) :
    i ∈ covered (before ++ rest) ↔ i ∈ covered before ∨ i ∈ covered rest := by
  simp only [covered, Set.mem_ofPred_eq, List.mem_append, or_and_right, exists_or]

theorem covered_cons (i : BitVec width) (here : RangeNode width)
    (rest : List (RangeNode width)) :
    i ∈ covered (here :: rest) ↔
      (here.minIndex.toNat ≤ i.toNat ∧ i.toNat ≤ here.maxIndex.toNat) ∨ i ∈ covered rest := by
  simp only [covered, Set.mem_ofPred_eq, List.mem_cons, or_and_right, exists_or, exists_eq_left]

theorem inserted_covered (sound : Sound ranges) (inserted : Inserted index ranges after) :
    covered after = Insert.insert index (covered ranges) := by
  ext i
  have numbers : i = index ↔ i.toNat = index.toNat := BitVec.toNat_inj.symm
  rw [Set.mem_insert_iff, numbers]
  cases inserted with
  | first =>
      simp only [covered_cons, covered_nil, or_false]
      omega
  | extend before last next =>
      obtain ⟨early, valid, _⟩ := ranked_around sound
      simp only [covered_append, covered_cons, covered_nil]
      grind
  | append before last below far =>
      simp only [covered_append, covered_cons, covered_nil]
      grind
  | known before range rest low high =>
      simp only [covered_append, covered_cons]
      grind
  | zero before here rest zero start =>
      simp only [covered_append, covered_cons]
      grind
  | between before here rest below above =>
      simp only [covered_append, covered_cons]
      grind
  | lower before here rest below next apart =>
      have valid := (ranked_around sound).2.1
      simp only [covered_append, covered_cons]
      grind
  | join before left here rest below next touching =>
      have valid := (ranked_around sound).2.1
      have hereValid := sound.valid here (by simp)
      simp only [covered_append, covered_cons]
      grind

end Sound

section Separate

/-- Between two ranges at least one number is missing. -/
def Separate (ranges : List (RangeNode width)) : Prop :=
  Ranked (fun first later => first.maxIndex.toNat + 1 < later.minIndex.toNat) ranges

/-- The insertions that bring two ranges together: of 0 where a range starts
with 0; of a number in a range or right behind it, where another range follows
or none can, if no range starts right behind the number. -/
def Scatters (ranges : List (RangeNode width)) (index : BitVec width) : Prop :=
  (index.toNat = 0 ∧ ∃ range ∈ ranges, range.minIndex.toNat = 0) ∨
  ((∃ range ∈ ranges, range.minIndex.toNat < index.toNat ∧
      index.toNat ≤ range.maxIndex.toNat + 1 ∧
      (range.maxIndex.toNat + 1 = 2 ^ width ∨
        ∃ next ∈ ranges, index.toNat < next.minIndex.toNat)) ∧
    ∀ next ∈ ranges, next.minIndex.toNat ≠ index.toNat + 1)

theorem separate_sound (separate : Separate ranges) : Sound ranges := by
  refine ⟨separate.valid, List.Pairwise.imp_of_mem ?_ separate.ordered⟩
  intro first later member _ apart
  have valid := separate.valid first member
  omega

section Cases

variable {before rest : List (RangeNode width)} {last left here : RangeNode width}

theorem extend_separate (separate : Separate (before ++ [last]))
    (next : index.toNat = last.maxIndex.toNat + 1) :
    Separate (before ++ [{ last with maxIndex := index }]) ∧
      ¬ Scatters (before ++ [last]) index := by
  have bound := index.isLt
  have valid := separate.valid
  obtain ⟨early, here, _⟩ := ranked_around separate
  constructor
  · refine ranked_replace [last] separate ?_ early nofun
    simp only
    omega
  · simp only [Scatters, List.mem_append, List.mem_singleton]
    grind

theorem append_separate_iff (separate : Separate (before ++ [last]))
    (below : ∀ range ∈ before ++ [last], range.minIndex.toNat < index.toNat)
    (far : last.maxIndex.toNat + 1 < index.toNat ∨ last.maxIndex.toNat + 1 = 2 ^ width) :
    Separate (before ++ [last] ++ [{ minIndex := index, maxIndex := index }]) ↔
      ¬ Scatters (before ++ [last]) index := by
  have bound := index.isLt
  obtain ⟨early, here, _⟩ := ranked_around separate
  rcases far with apart | full
  · refine iff_of_true (ranked_concat separate (Nat.le_refl _) ?_) ?_
    · intro range member
      rcases List.mem_append.mp member with first | own
      · have behind := early range first
        simp only
        omega
      · rw [List.mem_singleton.mp own]
        exact apart
    · have valid := separate.valid
      simp only [Scatters, List.mem_append, List.mem_singleton] at below valid ⊢
      grind
  · refine iff_of_false ?_ ?_
    · intro kept
      have behind := (ranked_around kept).1 last (by simp)
      simp only at behind
      omega
    · have under := below last (by simp)
      refine not_not.mpr (Or.inr ⟨⟨last, by simp, under, by omega, Or.inl full⟩, ?_⟩)
      intro range member
      have lower := below range member
      omega

theorem zero_separate_iff (zero : index.toNat = 0) (start : here.minIndex = index) :
    Separate (before ++ { minIndex := index, maxIndex := index } :: here :: rest) ↔
      ¬ Scatters (before ++ here :: rest) index := by
  subst start
  refine iff_of_false ?_ ?_
  · intro kept
    have behind := (ranked_around kept).2.2 here List.mem_cons_self
    simp only at behind
    omega
  · exact not_not.mpr (Or.inl ⟨zero, here, by simp, zero⟩)

theorem between_separate_iff (separate : Separate (before ++ here :: rest))
    (below : ∀ range ∈ before, range.minIndex.toNat < index.toNat)
    (above : index.toNat + 1 < here.minIndex.toNat) :
    Separate (before ++ { minIndex := index, maxIndex := index } :: here :: rest) ↔
      ¬ Scatters (before ++ here :: rest) index := by
  have valid := separate.valid
  obtain ⟨early, hereValid, late⟩ := ranked_around separate
  by_cases apart : ∀ range ∈ before, range.maxIndex.toNat + 1 < index.toNat
  · refine iff_of_true (ranked_replace [] separate (Nat.le_refl _) apart ?_) ?_
    · intro range member
      rcases List.mem_cons.mp member with rfl | later
      · exact above
      · have behind := late range later
        simp only
        omega
    · simp only [Scatters, List.mem_append, List.mem_cons] at valid ⊢
      grind
  · push Not at apart
    obtain ⟨range, member, close⟩ := apart
    refine iff_of_false ?_ ?_
    · intro kept
      have behind := (ranked_around kept).1 range member
      simp only at behind
      omega
    · refine not_not.mpr (Or.inr ⟨⟨range, by simp [member], below range member, close,
        Or.inr ⟨here, by simp, by omega⟩⟩, ?_⟩)
      simp only [List.mem_append, List.mem_cons]
      grind

/-- A range that the number lengthens downwards stays apart from the one before
it: they would have been joined. -/
theorem lower_separate (separate : Separate (before ++ here :: rest))
    (below : ∀ range ∈ before, range.minIndex.toNat < index.toNat)
    (next : index.toNat + 1 = here.minIndex.toNat)
    (apart : ∀ left, before.getLast? = some left → left.maxIndex.toNat + 1 ≠ index.toNat) :
    Separate (before ++ { here with minIndex := index } :: rest) ∧
      ¬ Scatters (before ++ here :: rest) index := by
  have valid := separate.valid
  obtain ⟨early, hereValid, late⟩ := ranked_around separate
  constructor
  · refine ranked_replace [here] separate ?_ ?_ late
    · simp only
      omega
    · rcases List.eq_nil_or_concat' before with rfl | ⟨earlier, left, rfl⟩
      · exact nofun
      · have behind := early left (by simp)
        have leftValid := valid left (by simp)
        have other := apart left List.getLast?_concat
        have earliest := (List.pairwise_append.mp
          (List.pairwise_append.mp separate.ordered).1).2.2
        intro range member
        rcases List.mem_append.mp member with first | own
        · have further := earliest range first left List.mem_cons_self
          simp only
          omega
        · rw [List.mem_singleton.mp own]
          simp only
          omega
  · simp only [Scatters, List.mem_append, List.mem_cons] at below ⊢
    grind

theorem join_separate (separate : Separate (before ++ left :: here :: rest))
    (below : left.minIndex.toNat < index.toNat) (next : index.toNat + 1 = here.minIndex.toNat) :
    Separate (before ++ { left with maxIndex := here.maxIndex } :: rest) ∧
      ¬ Scatters (before ++ left :: here :: rest) index := by
  have valid := separate.valid
  obtain ⟨early, leftValid, late⟩ := ranked_around separate
  have hereValid := valid here (by simp)
  have behind := (List.pairwise_cons.mp (List.pairwise_cons.mp
    (List.pairwise_append.mp separate.ordered).2.1).2).1
  constructor
  · refine ranked_replace [left, here] separate ?_ early behind
    simp only
    omega
  · simp only [Scatters, List.mem_append, List.mem_cons]
    grind

theorem known_unscattered (separate : Separate (before ++ here :: rest))
    (low : here.minIndex.toNat ≤ index.toNat) (high : index.toNat ≤ here.maxIndex.toNat)
    (positive : 0 < index.toNat)
    (whole : here.minIndex = index ∨ rest = [] ∧ here.maxIndex.toNat + 1 < 2 ^ width) :
    ¬ Scatters (before ++ here :: rest) index := by
  have valid := separate.valid
  obtain ⟨early, _, late⟩ := ranked_around separate
  simp only [Scatters, List.mem_append, List.mem_cons] at valid ⊢
  grind

end Cases

theorem inserted_separate (separate : Separate ranges) (inserted : Inserted index ranges after) :
    Separate after ↔ ¬ Scatters ranges index := by
  cases inserted with
  | first =>
      refine iff_of_true (ranked_concat ranked_nil (Nat.le_refl _) nofun) ?_
      simp [Scatters]
  | extend before last next =>
      obtain ⟨kept, unscattered⟩ := extend_separate separate next
      exact iff_of_true kept unscattered
  | append before last below far => exact append_separate_iff separate below far
  | known before range rest low high positive whole =>
      exact iff_of_true separate (known_unscattered separate low high positive whole)
  | zero before here rest zero start => exact zero_separate_iff zero start
  | between before here rest below above => exact between_separate_iff separate below above
  | lower before here rest below next apart =>
      obtain ⟨kept, unscattered⟩ := lower_separate separate below next apart
      exact iff_of_true kept unscattered
  | join before left here rest below next touching =>
      obtain ⟨kept, unscattered⟩ := join_separate separate below next
      exact iff_of_true kept unscattered

end Separate

inductive Call (width : Nat) where
  | insert (index : BitVec width)
  | clear
  | size

inductive Answer where
  | done
  | count (found : Nat)
  deriving DecidableEq

def serve (build : Build) (list : RangeList width) :
    Call width → Except Failure (Answer × RangeList width)
  | .insert index => do
      let list ← list.insert build index
      return (.done, list)
  | .clear => return (.done, list.clear)
  | .size => return (.count list.size, list)

/-- A set of numbers; its size may be any, but for whether it is 0. -/
def Collects (held : Set (BitVec width)) (call : Call width) (answer : Answer)
    (after : Set (BitVec width)) : Prop :=
  match call with
  | .insert index => answer = .done ∧ after = Insert.insert index held
  | .clear => answer = .done ∧ after = ∅
  | .size => (∃ count, answer = .count count ∧ (count = 0 ↔ held = ∅)) ∧ after = held

section Lives

variable {bits : Nat} (build : Build)

theorem covered_empty_iff (sound : Sound ranges) : ranges.length = 0 ↔ covered ranges = ∅ := by
  constructor
  · intro none
    rw [List.length_eq_zero_iff.mp none]
    exact Set.eq_empty_of_forall_notMem covered_nil
  · intro nothing
    cases ranges with
    | nil => rfl
    | cons range rest =>
        have held : range.minIndex ∈ covered (range :: rest) :=
          (covered_cons _ _ _).mpr (Or.inl ⟨Nat.le_refl _, sound.valid range List.mem_cons_self⟩)
        rw [nothing] at held
        contradiction

theorem sound_collects (list : RangeList (bits + 1)) (sound : Sound list.ranges)
    (call : Call (bits + 1)) :
    ∃ answer after, serve build list call = .ok (answer, after) ∧ Sound after.ranges ∧
      Collects (covered list.ranges) call answer (covered after.ranges) := by
  cases call with
  | insert index =>
      obtain ⟨ranges, ran, inserted⟩ := insert_inserted build list sound index
      refine ⟨.done, { ranges := ranges }, ?_, inserted_sound sound inserted, rfl,
        inserted_covered sound inserted⟩
      simp only [serve, ran, bind, Except.bind, pure, Except.pure]
  | clear =>
      exact ⟨.done, list.clear, rfl, ranked_nil, rfl,
        Set.eq_empty_of_forall_notMem covered_nil⟩
  | size =>
      exact ⟨.count list.size, list, rfl, sound, ⟨list.size, rfl, covered_empty_iff sound⟩, rfl⟩

/-- Whatever is inserted in whatever order, the list holds just that. -/
theorem life_collects (sequence : List (Call (bits + 1))) :
    ∃ answers last, calls (serve build) empty sequence = .ok (answers, last) ∧
      Trace Collects ∅ sequence answers (covered last.ranges) := by
  obtain ⟨answers, last, ran, _, trace⟩ := throughout_trace
    (fun list : RangeList (bits + 1) => Sound list.ranges) (fun list => covered list.ranges)
    (fun list call sound _ => sound_collects build list sound call) empty ranked_nil sequence
    (throughout_always (fun _ _ => trivial) empty sequence)
  have start : covered (empty : RangeList (bits + 1)).ranges = ∅ :=
    Set.eq_empty_of_forall_notMem covered_nil
  rw [start] at trace
  exact ⟨answers, last, ran, trace⟩

def KeepsApart (list : RangeList width) : Call width → Prop
  | .insert index => ¬ Scatters list.ranges index
  | _ => True

/-- The ranges stay apart over exactly those sequences of calls none of which
scatters. -/
theorem life_separate_iff (sequence : List (Call (bits + 1))) :
    Throughout (serve build) KeepsApart empty sequence ↔
      ∀ made, made <+: sequence →
        ∃ answers last, calls (serve build) empty made = .ok (answers, last) ∧
          Separate last.ranges := by
  refine throughout_iff (fun list : RangeList (bits + 1) => Separate list.ranges) ?_ empty
    ranked_nil sequence
  intro list call separate
  cases call with
  | insert index =>
      obtain ⟨ranges, ran, inserted⟩ :=
        insert_inserted build list (separate_sound separate) index
      have served : serve build list (.insert index) = .ok (.done, { ranges := ranges }) := by
        simp only [serve, ran, bind, Except.bind, pure, Except.pure]
      have decided := inserted_separate separate inserted
      constructor
      · intro keeps
        exact ⟨.done, { ranges := ranges }, served, decided.mpr keeps⟩
      · rintro ⟨answer, after, same, kept⟩
        rw [served] at same
        cases same
        exact decided.mp kept
  | clear => exact iff_of_true trivial ⟨.done, list.clear, rfl, ranked_nil⟩
  | size => exact iff_of_true trivial ⟨.count list.size, list, rfl, separate⟩

/-- 4 comes right behind a range that another follows, 0 twice. -/
example : (calls (serve ⟨.x64, true⟩) (empty : RangeList 24)
      [.insert 2, .insert 3, .insert 9, .insert 4, .insert 0, .insert 0]).map
        (fun ran => ran.2.ranges.map fun range => (range.minIndex.toNat, range.maxIndex.toNat)) =
    .ok [(0, 0), (0, 0), (2, 3), (4, 4), (9, 9)] := by rfl

end Lives

end DataStructures.RangeList
