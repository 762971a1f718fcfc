import Mathlib.Data.List.Cycle

/-!
Circular doubly linked lists. Two functions give the neighbours of a cell, as
far as the cell is there; `Ring` says that a list of cells is linked in a
circle, from whichever of its members one starts. A cell is taken out or put in
front of the first by new links at the ends of one gap, and all links inside
the rest stay as they are.
-/

namespace Rings

variable {Address : Type}

section Definitions

variable (next prev : Address → Option Address)

def Linked (left right : Address) : Prop :=
  next left = some right ∧ prev right = some left

def Ring (members : List Address) : Prop :=
  Cycle.Chain (Linked next prev) (members : Cycle Address)

end Definitions

variable {next prev next' prev' : Address → Option Address}

theorem ring_nil : Ring next prev [] := trivial

theorem chain_closed {related : Address → Address → Prop} (first : Address) (rest : List Address)
    (last : Address) :
    (first :: (rest ++ [last])).IsChain related ↔
      (first :: rest).IsChain related ∧ related (rest.getLastD first) last := by
  induction rest generalizing first with
  | nil => simp
  | cons second rest ih =>
      simp only [List.cons_append, List.isChain_cons_cons, ih second, List.getLastD_cons, and_assoc]

theorem ring_cons (first : Address) (rest : List Address) :
    Ring next prev (first :: rest) ↔
      (first :: rest).IsChain (Linked next prev) ∧
        Linked next prev (rest.getLastD first) first := by
  rw [Ring, Cycle.chain_coe_cons, chain_closed]

theorem ring_rotated {members others : List Address} (rotated : members ~r others) :
    Ring next prev members ↔ Ring next prev others := by
  rw [Ring, Ring, Cycle.coe_eq_coe.mpr rotated]

theorem ring_front (before after : List Address) (member : Address) :
    Ring next prev (before ++ member :: after) ↔ Ring next prev (member :: (after ++ before)) :=
  ring_rotated List.isRotated_append

theorem ring_next (first : Address) (rest : List Address)
    (ring : Ring next prev (first :: rest)) : next first = some (rest.headD first) := by
  obtain ⟨chain, closing⟩ := (ring_cons first rest).mp ring
  cases rest with
  | nil => exact closing.1
  | cons second rest => exact (List.isChain_cons_cons.mp chain).1.1

theorem ring_prev (first : Address) (rest : List Address)
    (ring : Ring next prev (first :: rest)) : prev first = some (rest.getLastD first) :=
  ((ring_cons first rest).mp ring).2.2

theorem last_mem (first : Address) (rest : List Address) :
    rest.getLastD first ∈ first :: rest := by
  induction rest generalizing first with
  | nil => simp
  | cons second rest ih =>
      rw [List.getLastD_cons]
      exact List.mem_cons_of_mem _ (ih second)

theorem chain_transport (first : Address) (rest : List Address) (nodup : (first :: rest).Nodup)
    (chain : (first :: rest).IsChain (Linked next prev))
    (forward : ∀ member ∈ first :: rest, member ≠ rest.getLastD first →
      next' member = next member)
    (backward : ∀ member ∈ rest, prev' member = prev member) :
    (first :: rest).IsChain (Linked next' prev') := by
  induction rest generalizing first with
  | nil => exact .singleton first
  | cons second rest ih =>
      rw [List.isChain_cons_cons] at chain ⊢
      rw [List.getLastD_cons] at forward
      have other : first ≠ rest.getLastD second := by
        intro same
        exact (List.nodup_cons.mp nodup).1 (same ▸ last_mem second rest)
      constructor
      · exact ⟨(forward first List.mem_cons_self other).trans chain.1.1,
          (backward second List.mem_cons_self).trans chain.1.2⟩
      · exact ih second (List.nodup_cons.mp nodup).2 chain.2
          (fun member inside => forward member (List.mem_cons_of_mem _ inside))
          (fun member inside => backward member (List.mem_cons_of_mem _ inside))

theorem ring_transport (members : List Address) (ring : Ring next prev members)
    (same : ∀ member ∈ members, next' member = next member ∧ prev' member = prev member) :
    Ring next' prev' members := by
  cases members with
  | nil => exact ring_nil
  | cons first rest =>
      rw [Ring, Cycle.chain_coe_cons] at ring ⊢
      refine ring.imp_of_mem_imp ?_
      intro left right leftInside rightInside linked
      have leftSame := same left (by simpa [or_comm] using leftInside)
      have rightSame := same right (by simpa [or_comm] using rightInside)
      exact ⟨leftSame.1.trans linked.1, rightSame.2.trans linked.2⟩

theorem ring_single (member : Address) (forward : next member = some member)
    (backward : prev member = some member) : Ring next prev [member] :=
  (ring_cons member []).mpr ⟨.singleton member, forward, backward⟩

/-- The first member is taken out when its neighbours are linked to each other. -/
theorem ring_unlink (gone first : Address) (rest : List Address)
    (nodup : (first :: rest).Nodup) (ring : Ring next prev (gone :: first :: rest))
    (forward : ∀ member ∈ first :: rest, member ≠ rest.getLastD first →
      next' member = next member)
    (backward : ∀ member ∈ rest, prev' member = prev member)
    (closed : Linked next' prev' (rest.getLastD first) first) :
    Ring next' prev' (first :: rest) := by
  rw [ring_cons] at ring ⊢
  exact ⟨chain_transport first rest nodup (List.isChain_cons_cons.mp ring.1).2 forward backward,
    closed⟩

/-- A new cell between the last and the first member is the last from then on. -/
theorem ring_link (added first : Address) (rest : List Address)
    (nodup : (first :: rest).Nodup) (ring : Ring next prev (first :: rest))
    (forward : ∀ member ∈ first :: rest, member ≠ rest.getLastD first →
      next' member = next member)
    (backward : ∀ member ∈ rest, prev' member = prev member)
    (behind : Linked next' prev' (rest.getLastD first) added)
    (ahead : Linked next' prev' added first) :
    Ring next' prev' (first :: (rest ++ [added])) := by
  rw [ring_cons] at ring ⊢
  rw [chain_closed]
  refine ⟨⟨chain_transport first rest nodup ring.1 forward backward, behind⟩, ?_⟩
  simpa using ahead

end Rings
