import Mathlib.Data.List.Basic

/-!
Lists laid out in a circular array. A cell is `none` until something is written
to it. `Spells cells head items` says that the items stand one after another
from `head` on, with at most one wrap at the end of the array. Nothing is said
of the other cells, so old values may stay in them.
-/

namespace CircularArray

variable {Item : Type}

/-- An index that ran past the end continues at the front. -/
def wrap (size index : Nat) : Nat :=
  if size ≤ index then index - size else index

def next (size index : Nat) : Nat :=
  if index + 1 = size then 0 else index + 1

def Spells (cells : List (Option Item)) (head : Nat) (items : List Item) : Prop :=
  ∀ position item, items[position]? = some item →
    cells[wrap cells.length (head + position)]? = some (some item)

section Indices

variable {size head : Nat}

theorem wrap_inside {index : Nat} (inside : index < size) : wrap size index = index := by
  rw [wrap, if_neg (Nat.not_le.mpr inside)]

theorem wrap_lt (headInside : head < size) {position : Nat} (fits : position ≤ size) :
    wrap size (head + position) < size := by
  unfold wrap
  split <;> omega

theorem wrap_injective {left right : Nat} (leftFits : left < size) (rightFits : right < size)
    (same : wrap size (head + left) = wrap size (head + right)) :
    left = right := by
  unfold wrap at same
  split at same <;> split at same <;> omega

theorem mod_eq_wrap (headInside : head < size) {position : Nat} (fits : position ≤ size) :
    (head + position) % size = wrap size (head + position) := by
  unfold wrap
  split
  · next past =>
      rw [Nat.mod_eq_sub_mod past]
      exact Nat.mod_eq_of_lt (by omega)
  · exact Nat.mod_eq_of_lt (by omega)

theorem next_wrap (headInside : head < size) {position : Nat} (fits : position < size) :
    next size (wrap size (head + position)) = wrap size (head + (position + 1)) := by
  unfold next wrap
  split <;> split <;> split <;> omega

theorem next_lt {index : Nat} (inside : index < size) : next size index < size := by
  unfold next
  split <;> omega

theorem wrap_next {position : Nat} (fits : position < size) :
    wrap size (next size head + position) = wrap size (head + (position + 1)) := by
  unfold next wrap
  split <;> split <;> split <;> omega

end Indices

section Cells

variable {cells : List (Option Item)} {head : Nat} {items : List Item}

theorem spells_nil (cells : List (Option Item)) (head : Nat) :
    Spells cells head ([] : List Item) := by
  intro position item found
  simp at found

theorem spells_head {item : Item} {rest : List Item} (spells : Spells cells head (item :: rest))
    (headInside : head < cells.length) : cells[head]? = some (some item) := by
  have first := spells 0 item rfl
  rwa [Nat.add_zero, wrap_inside headInside] at first

theorem spells_tail {item : Item} {rest : List Item} (spells : Spells cells head (item :: rest))
    (fits : (item :: rest).length ≤ cells.length) :
    Spells cells (next cells.length head) rest := by
  intro position later found
  have inside : position < rest.length := (List.getElem?_eq_some_iff.mp found).1
  rw [wrap_next (by simp at fits; omega)]
  exact spells (position + 1) later (by simpa using found)

theorem spells_snoc (spells : Spells cells head items) (headInside : head < cells.length)
    (room : items.length < cells.length) (item : Item) :
    Spells (cells.set (wrap cells.length (head + items.length)) (some item)) head
      (items ++ [item]) := by
  intro position found taken
  rw [List.length_set, List.getElem?_set]
  by_cases same : items.length = position
  · cases same
    simp only [List.getElem?_append_right (Nat.le_refl _), Nat.sub_self, List.getElem?_cons_zero,
      Option.some.injEq] at taken
    cases taken
    simp [wrap_lt headInside (Nat.le_of_lt room)]
  · have inside : position < items.length := by
      have bound := (List.getElem?_eq_some_iff.mp taken).1
      simp at bound
      omega
    have apart : wrap cells.length (head + items.length) ≠
        wrap cells.length (head + position) := by
      intro clash
      exact same (wrap_injective room (by omega) clash)
    rw [List.getElem?_append_left inside] at taken
    simpa [apart] using spells position found taken

theorem spells_flat (items : List Item) (rest : List (Option Item)) :
    Spells (items.map some ++ rest) 0 items := by
  intro position item found
  have inside : position < items.length := (List.getElem?_eq_some_iff.mp found).1
  rw [Nat.zero_add, wrap_inside (by simp; omega), List.getElem?_append_left (by simpa using inside)]
  simp [found]

end Cells

end CircularArray
