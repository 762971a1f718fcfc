import DrakNet.RangeList

/-!
What `Insert` does to the ranges, case by case. `Sound` is all its binary search
needs; it is kept also where ranges come to overlap.
-/

namespace DataStructures.RangeList

open CString DrakNet

section Numbers

variable {bits : Nat}

theorem one_toNat : (1 : BitVec (bits + 1)).toNat = 1 := by
  have wide : 1 < 2 ^ (bits + 1) := Nat.one_lt_two_pow (Nat.succ_ne_zero bits)
  change 1 % 2 ^ (bits + 1) = 1
  exact Nat.mod_eq_of_lt wide

theorem succ_toNat (x : BitVec (bits + 1)) :
    (x + 1).toNat = if x.toNat + 1 = 2 ^ (bits + 1) then 0 else x.toNat + 1 := by
  have bound := x.isLt
  rw [BitVec.toNat_add, one_toNat]
  split
  · next last => rw [last, Nat.mod_self]
  · exact Nat.mod_eq_of_lt (by omega)

theorem pred_toNat (x : BitVec (bits + 1)) :
    (x - 1).toNat = if x.toNat = 0 then 2 ^ (bits + 1) - 1 else x.toNat - 1 := by
  have bound := x.isLt
  have wide : 1 < 2 ^ (bits + 1) := Nat.one_lt_two_pow (Nat.succ_ne_zero bits)
  rw [BitVec.toNat_sub, one_toNat]
  split
  · next zero =>
      rw [zero, Nat.add_zero]
      exact Nat.mod_eq_of_lt (by omega)
  · next positive =>
      have carried : 2 ^ (bits + 1) - 1 + x.toNat = 2 ^ (bits + 1) + (x.toNat - 1) := by omega
      rw [carried, Nat.add_mod_left]
      exact Nat.mod_eq_of_lt (by omega)

end Numbers

section Search

variable {width : Nat} (index : BitVec width) (range : RangeNode width)

theorem comp_smaller : rangeNodeComp index range < 0 ↔ index.toNat < range.minIndex.toNat := by
  unfold rangeNodeComp
  split
  · next smaller => simpa [BitVec.lt_def] using smaller
  · next notSmaller =>
      rw [BitVec.lt_def] at notSmaller
      split
      · exact iff_of_false (by decide) notSmaller
      · exact iff_of_false (by decide) notSmaller

theorem comp_same : rangeNodeComp index range = 0 ↔ index = range.minIndex := by
  unfold rangeNodeComp
  split
  · next smaller =>
      rw [BitVec.lt_def] at smaller
      refine iff_of_false (by decide) ?_
      rintro rfl
      omega
  · split
    · next same => simpa using same
    · next other => simpa using other

theorem comp_greater : 0 < rangeNodeComp index range ↔ range.minIndex.toNat < index.toNat := by
  unfold rangeNodeComp
  split
  · next smaller =>
      rw [BitVec.lt_def] at smaller
      exact iff_of_false (by decide) (by omega)
  · next notSmaller =>
      rw [BitVec.lt_def] at notSmaller
      split
      · next same => simp [same]
      · next other =>
          have apart : index.toNat ≠ range.minIndex.toNat :=
            fun same => other (BitVec.eq_of_toNat_eq same)
          exact iff_of_true (by decide) (by omega)

end Search

structure Ranked {width : Nat} (order : RangeNode width → RangeNode width → Prop)
    (ranges : List (RangeNode width)) : Prop where
  valid : ∀ range ∈ ranges, range.minIndex.toNat ≤ range.maxIndex.toNat
  ordered : ranges.Pairwise order

def Sound {width : Nat} (ranges : List (RangeNode width)) : Prop :=
  Ranked (fun first later => first.minIndex.toNat ≤ later.minIndex.toNat) ranges

theorem sound_arranged {width : Nat} {ranges : List (RangeNode width)} (sound : Sound ranges)
    (index : BitVec width) : OrderedList.Arranged rangeNodeComp ranges index := by
  apply OrderedList.arranged_of_pairwise
  refine sound.ordered.imp ?_
  intro first later ordered
  rw [comp_smaller, comp_smaller, comp_greater, comp_greater]
  omega

inductive Inserted {width : Nat} (index : BitVec width) :
    List (RangeNode width) → List (RangeNode width) → Prop where
  | first : Inserted index [] [{ minIndex := index, maxIndex := index }]
  | extend (before : List (RangeNode width)) (last : RangeNode width) :
      index.toNat = last.maxIndex.toNat + 1 →
      Inserted index (before ++ [last]) (before ++ [{ last with maxIndex := index }])
  -- `maxIndex + 1` is 0 where the last range ends with the greatest number
  | append (before : List (RangeNode width)) (last : RangeNode width) :
      (∀ range ∈ before ++ [last], range.minIndex.toNat < index.toNat) →
      last.maxIndex.toNat + 1 < index.toNat ∨ last.maxIndex.toNat + 1 = 2 ^ width →
      Inserted index (before ++ [last])
        (before ++ [last] ++ [{ minIndex := index, maxIndex := index }])
  | known (before : List (RangeNode width)) (range : RangeNode width)
      (after : List (RangeNode width)) :
      range.minIndex.toNat ≤ index.toNat → index.toNat ≤ range.maxIndex.toNat →
      0 < index.toNat →
      range.minIndex = index ∨ after = [] ∧ range.maxIndex.toNat + 1 < 2 ^ width →
      Inserted index (before ++ range :: after) (before ++ range :: after)
  -- and `minIndex - 1` is the greatest number where `here` starts with 0
  | zero (before : List (RangeNode width)) (here : RangeNode width)
      (after : List (RangeNode width)) :
      index.toNat = 0 → here.minIndex = index →
      Inserted index (before ++ here :: after)
        (before ++ { minIndex := index, maxIndex := index } :: here :: after)
  | between (before : List (RangeNode width)) (here : RangeNode width)
      (after : List (RangeNode width)) :
      (∀ range ∈ before, range.minIndex.toNat < index.toNat) →
      index.toNat + 1 < here.minIndex.toNat →
      Inserted index (before ++ here :: after)
        (before ++ { minIndex := index, maxIndex := index } :: here :: after)
  | lower (before : List (RangeNode width)) (here : RangeNode width)
      (after : List (RangeNode width)) :
      (∀ range ∈ before, range.minIndex.toNat < index.toNat) →
      index.toNat + 1 = here.minIndex.toNat →
      (∀ left, before.getLast? = some left → left.maxIndex.toNat + 1 ≠ index.toNat) →
      Inserted index (before ++ here :: after)
        (before ++ { here with minIndex := index } :: after)
  | join (before : List (RangeNode width)) (left here : RangeNode width)
      (after : List (RangeNode width)) :
      left.minIndex.toNat < index.toNat →
      index.toNat + 1 = here.minIndex.toNat → left.maxIndex.toNat + 1 = index.toNat →
      Inserted index (before ++ left :: here :: after)
        (before ++ { left with maxIndex := here.maxIndex } :: after)

section Calls

variable {bits : Nat} (build : Build) {index : BitVec (bits + 1)}

theorem lower_min_ok (before after : List (RangeNode (bits + 1))) (here : RangeNode (bits + 1))
    (below : ∀ range ∈ before, range.minIndex.toNat < index.toNat)
    (next : index.toNat + 1 = here.minIndex.toNat) :
    ∃ ranges,
      lowerMin build (before ++ here :: after) before.length here = .ok { ranges := ranges } ∧
      Inserted index (before ++ here :: after) ranges := by
  have lowered : here.minIndex - 1 = index := by
    apply BitVec.eq_of_toNat_eq
    rw [pred_toNat, if_neg (by omega)]
    omega
  rcases List.eq_nil_or_concat' before with rfl | ⟨earlier, left, rfl⟩
  · refine ⟨{ here with minIndex := index } :: after, ?_, .lower [] here after below next nofun⟩
    simp only [lowerMin, lowered, List.nil_append, List.length_nil, List.set_cons_zero,
      Nat.lt_irrefl, ↓reduceIte, pure, Except.pure]
  · have under := below left (by simp)
    have positive : 0 < (earlier ++ [left]).length := by simp
    have place : (earlier ++ [left]).length - 1 = earlier.length := by simp
    have lowerRead : List.operatorAt build
        (earlier ++ [left] ++ { here with minIndex := index } :: after) earlier.length =
          .ok left := by
      rw [List.append_assoc, List.singleton_append]
      exact List.operator_at_middle build earlier left _
    have leftSucc := succ_toNat left.maxIndex
    by_cases joined : left.maxIndex + 1 = index
    · have touching : left.maxIndex.toNat + 1 = index.toNat := by
        rw [joined] at leftSucc
        split at leftSucc <;> omega
      refine ⟨earlier ++ { left with maxIndex := here.maxIndex } :: after, ?_, ?_⟩
      · have replaced : (earlier ++ [left] ++ { here with minIndex := index } :: after).set
            earlier.length { left with maxIndex := here.maxIndex } =
              earlier ++ [{ left with maxIndex := here.maxIndex }] ++
                { here with minIndex := index } :: after := by
          rw [List.append_assoc, List.singleton_append, List.set_middle]
          simp
        have removed := List.remove_middle build
          (earlier ++ [{ left with maxIndex := here.maxIndex }])
          { here with minIndex := index } after
        have length : (earlier ++ [{ left with maxIndex := here.maxIndex }]).length =
            (earlier ++ [left]).length := by simp
        rw [length] at removed
        simp only [lowerMin, lowered, List.set_middle, positive, place, lowerRead, joined,
          replaced, removed, ↓reduceIte, bind, Except.bind, pure, Except.pure]
        rw [List.append_assoc, List.singleton_append]
      · rw [List.append_assoc, List.singleton_append]
        exact .join earlier left here after under next touching
    · refine ⟨earlier ++ [left] ++ { here with minIndex := index } :: after, ?_, ?_⟩
      · simp only [lowerMin, lowered, List.set_middle, positive, place, lowerRead, joined,
          ↓reduceIte, bind, Except.bind, pure, Except.pure]
      · refine .lower (earlier ++ [left]) here after below next ?_
        intro other last
        rw [List.getLast?_concat] at last
        cases last
        intro touching
        apply joined
        apply BitVec.eq_of_toNat_eq
        have bound := index.isLt
        rw [leftSucc, if_neg (by omega)]
        exact touching

theorem insert_node_at_end (ranges : List (RangeNode (bits + 1)))
    (ran : OrderedList.getIndexFromKey build rangeNodeComp ranges index =
      .ok (ranges.length, false)) :
    insertNode build ranges index =
      .ok { ranges := ranges ++ [{ minIndex := index, maxIndex := index }] } := by
  simp only [insertNode, OrderedList.insert_at_end build _ _ ran, bind, Except.bind, pure,
    Except.pure]

theorem insert_behind (before : List (RangeNode (bits + 1))) (last : RangeNode (bits + 1))
    (below : ∀ range ∈ before ++ [last], range.minIndex.toNat < index.toNat)
    (ran : OrderedList.getIndexFromKey build rangeNodeComp (before ++ [last]) index =
      .ok ((before ++ [last]).length, false)) :
    ∃ ranges, insert build { ranges := before ++ [last] } index = .ok { ranges := ranges } ∧
      Inserted index (before ++ [last]) ranges := by
  have under := below last (by simp)
  have some : (before ++ [last]).length ≠ 0 := by simp
  have place : (before ++ [last]).length - 1 = before.length := by simp
  have lastRead := List.operator_at_middle build before last []
  have lastSucc := succ_toNat last.maxIndex
  by_cases next : index = last.maxIndex + 1
  · refine ⟨before ++ [{ last with maxIndex := index }], ?_, .extend before last ?_⟩
    · simp only [insert, some, ran, place, lastRead, ← next, List.set_middle, ↓reduceIte, bind,
        Except.bind, pure, Except.pure]
    · rw [← next] at lastSucc
      split at lastSucc <;> omega
  · by_cases further : last.maxIndex + 1 < index
    · refine ⟨before ++ [last] ++ [{ minIndex := index, maxIndex := index }], ?_,
        .append before last below ?_⟩
      · simp only [insert, some, ran, place, lastRead, next, further, ↓reduceIte, bind,
          Except.bind]
        exact insert_node_at_end build _ ran
      · rw [BitVec.lt_def, lastSucc] at further
        split at further <;> omega
    · have bound := last.maxIndex.isLt
      rw [BitVec.lt_def, lastSucc] at further
      have room : last.maxIndex.toNat + 1 < 2 ^ (bits + 1) := by
        split at further <;> omega
      rw [if_neg (by omega)] at lastSucc further
      have other : index.toNat ≠ (last.maxIndex + 1).toNat :=
        fun same => next (BitVec.eq_of_toNat_eq same)
      have notFurther : ¬ last.maxIndex + 1 < index := by
        rw [BitVec.lt_def, lastSucc]
        exact further
      refine ⟨before ++ [last], ?_, .known before last [] (Nat.le_of_lt under) (by omega)
        (by omega) (Or.inr ⟨rfl, room⟩)⟩
      simp only [insert, some, ran, place, lastRead, next, notFurther, ↓reduceIte, bind,
        Except.bind, pure, Except.pure]

theorem insert_before (before after : List (RangeNode (bits + 1))) (here : RangeNode (bits + 1))
    (below : ∀ range ∈ before, range.minIndex.toNat < index.toNat)
    (above : index.toNat < here.minIndex.toNat)
    (ran : OrderedList.getIndexFromKey build rangeNodeComp (before ++ here :: after) index =
      .ok (before.length, false)) :
    ∃ ranges, insert build { ranges := before ++ here :: after } index =
        .ok { ranges := ranges } ∧
      Inserted index (before ++ here :: after) ranges := by
  have some : (before ++ here :: after).length ≠ 0 := by simp
  have inside : before.length ≠ (before ++ here :: after).length := by simp
  have hereRead := List.operator_at_middle build before here after
  have herePred := pred_toNat here.minIndex
  rw [if_neg (by omega)] at herePred
  by_cases further : index < here.minIndex - 1
  · refine ⟨before ++ { minIndex := index, maxIndex := index } :: here :: after, ?_,
      .between before here after below ?_⟩
    · simp only [insert, some, ran, inside, hereRead, further, List.insert_at_middle, ↓reduceIte,
        bind, Except.bind, pure, Except.pure]
    · rw [BitVec.lt_def, herePred] at further
      omega
  · have next : index.toNat + 1 = here.minIndex.toNat := by
      rw [BitVec.lt_def, herePred] at further
      omega
    have lowered : index = here.minIndex - 1 := by
      apply BitVec.eq_of_toNat_eq
      omega
    obtain ⟨ranges, joined, inserted⟩ := lower_min_ok build before after here below next
    refine ⟨ranges, ?_, inserted⟩
    simp only [insert, some, ran, inside, hereRead, further, ↓reduceIte, bind, Except.bind]
    rw [if_pos lowered, joined]

theorem insert_at_start (before after : List (RangeNode (bits + 1))) (here : RangeNode (bits + 1))
    (start : index = here.minIndex) (valid : here.minIndex.toNat ≤ here.maxIndex.toNat)
    (ran : OrderedList.getIndexFromKey build rangeNodeComp (before ++ here :: after) index =
      .ok (before.length, true)) :
    ∃ ranges, insert build { ranges := before ++ here :: after } index =
        .ok { ranges := ranges } ∧
      Inserted index (before ++ here :: after) ranges := by
  subst start
  have some : (before ++ here :: after).length ≠ 0 := by simp
  have inside : before.length ≠ (before ++ here :: after).length := by simp
  have hereRead := List.operator_at_middle build before here after
  have herePred := pred_toNat here.minIndex
  have wide : 1 < 2 ^ (bits + 1) := Nat.one_lt_two_pow (Nat.succ_ne_zero bits)
  by_cases zero : here.minIndex.toNat = 0
  · rw [if_pos zero] at herePred
    have wrapped : here.minIndex < here.minIndex - 1 := by
      rw [BitVec.lt_def, herePred]
      omega
    refine ⟨before ++ { minIndex := here.minIndex, maxIndex := here.minIndex } :: here :: after,
      ?_, .zero before here after zero rfl⟩
    simp only [insert, some, ran, inside, hereRead, wrapped, List.insert_at_middle, ↓reduceIte,
      bind, Except.bind, pure, Except.pure]
  · rw [if_neg zero] at herePred
    have notBelow : ¬ here.minIndex < here.minIndex - 1 := by
      rw [BitVec.lt_def, herePred]
      omega
    have notNext : here.minIndex ≠ here.minIndex - 1 := by
      intro same
      rw [← same] at herePred
      omega
    have held : here.minIndex ≤ here.minIndex ∧ here.minIndex ≤ here.maxIndex := by
      rw [BitVec.le_def, BitVec.le_def]
      omega
    refine ⟨before ++ here :: after, ?_, .known before here after (Nat.le_refl _) valid
      (Nat.pos_of_ne_zero zero) (Or.inl rfl)⟩
    simp only [insert, some, ran, inside, hereRead, notBelow, notNext, held, ↓reduceIte, bind,
      Except.bind, pure, Except.pure, and_self]

theorem insert_inserted (list : RangeList (bits + 1)) (sound : Sound list.ranges)
    (index : BitVec (bits + 1)) :
    ∃ ranges, insert build list index = .ok { ranges := ranges } ∧
      Inserted index list.ranges ranges := by
  obtain ⟨ranges⟩ := list
  obtain ⟨place, found, ran, located⟩ :=
    OrderedList.get_index_from_key_ok build (sound_arranged sound index)
  cases OrderedList.located_split located with
  | hit before here after same =>
      exact insert_at_start build before after here ((comp_same index here).mp same)
        (sound.valid here (by simp)) ran
  | miss before after smaller greater =>
      have below : ∀ range ∈ before, range.minIndex.toNat < index.toNat :=
        fun range member => (comp_greater index range).mp (smaller range member)
      cases after with
      | cons here rest =>
          exact insert_before build before rest here below
            ((comp_smaller index here).mp (greater here List.mem_cons_self)) ran
      | nil =>
          have whole : before.append [] = before := List.append_nil before
          rw [whole] at ran ⊢
          rcases List.eq_nil_or_concat' before with rfl | ⟨earlier, last, rfl⟩
          · refine ⟨[{ minIndex := index, maxIndex := index }], ?_, .first⟩
            simp only [insert, List.length_nil, ↓reduceIte]
            exact insert_node_at_end build [] ran
          · exact insert_behind build earlier last below ran

end Calls

end DataStructures.RangeList
