import DrakNet.MemoryPool

/-!
The page lists of a pool as rings. What a pool looks like is taken in three
views: the links of its pages, their contents, and the fields of the pool
itself. The operations on lists change links alone, and `Relinks` says which.
-/

namespace DataStructures.MemoryPool

open CString DrakNet Rings

variable {blockSize : Nat}

section Views

def pageAt (pool : MemoryPool blockSize) (address : Nat) : Option Page :=
  (pool.heap address).join

def nextOf (pool : MemoryPool blockSize) (address : Nat) : Option Nat :=
  (pool.pageAt address).map Page.next

def prevOf (pool : MemoryPool blockSize) (address : Nat) : Option Nat :=
  (pool.pageAt address).map Page.prev

def contents (pool : MemoryPool blockSize) (address : Nat) : Option (List Block × Nat) :=
  (pool.pageAt address).map fun page => (page.availableStack, page.availableStackSize)

variable (pool : MemoryPool blockSize) (address : Nat) (page : Page)

theorem load_ok_iff : pool.load address = .ok page ↔ pool.pageAt address = some page := by
  unfold load pageAt
  rcases pool.heap address with _ | _ | found <;> simp

@[simp] theorem page_at_store (other : Nat) :
    (pool.store address page).pageAt other =
      if other = address then some page else pool.pageAt other := by
  by_cases same : other = address
  · subst other
    simp [pageAt, store]
  · simp [pageAt, store, same]

theorem next_of_store :
    (pool.store address page).nextOf = Function.update pool.nextOf address (some page.next) := by
  funext other
  by_cases same : other = address
  · subst other
    simp [nextOf]
  · simp [nextOf, same]

theorem prev_of_store :
    (pool.store address page).prevOf = Function.update pool.prevOf address (some page.prev) := by
  funext other
  by_cases same : other = address
  · subst other
    simp [prevOf]
  · simp [prevOf, same]

theorem contents_store :
    (pool.store address page).contents = Function.update pool.contents address
      (some (page.availableStack, page.availableStackSize)) := by
  funext other
  by_cases same : other = address
  · subst other
    simp [contents]
  · simp [contents, same]

theorem page_of_next {next : Nat} (linked : pool.nextOf address = some next) :
    ∃ page, pool.pageAt address = some page ∧ page.next = next :=
  Option.map_eq_some_iff.mp linked

theorem page_of_prev {prev : Nat} (linked : pool.prevOf address = some prev) :
    ∃ page, pool.pageAt address = some page ∧ page.prev = prev :=
  Option.map_eq_some_iff.mp linked

end Views

structure Kept (before after : MemoryPool blockSize) : Prop where
  contents : after.contents = before.contents
  allocated : ∀ address, after.heap address = none ↔ before.heap address = none
  availablePages : after.availablePages = before.availablePages
  availablePagesSize : after.availablePagesSize = before.availablePagesSize
  unavailablePages : after.unavailablePages = before.unavailablePages
  unavailablePagesSize : after.unavailablePagesSize = before.unavailablePagesSize
  memoryPoolPageSize : after.memoryPoolPageSize = before.memoryPoolPageSize

structure Relinks (before after : MemoryPool blockSize) (forward backward : Nat → Option Nat) :
    Prop extends Kept before after where
  next : after.nextOf = forward
  prev : after.prevOf = backward

variable {pool middle after : MemoryPool blockSize} {forward backward further back : Nat → Option Nat}

theorem Kept.trans (first : Kept pool middle) (later : Kept middle after) : Kept pool after where
  contents := later.contents.trans first.contents
  allocated := fun address => (later.allocated address).trans (first.allocated address)
  availablePages := later.availablePages.trans first.availablePages
  availablePagesSize := later.availablePagesSize.trans first.availablePagesSize
  unavailablePages := later.unavailablePages.trans first.unavailablePages
  unavailablePagesSize := later.unavailablePagesSize.trans first.unavailablePagesSize
  memoryPoolPageSize := later.memoryPoolPageSize.trans first.memoryPoolPageSize

theorem Relinks.trans (first : Relinks pool middle forward backward)
    (later : Relinks middle after further back) : Relinks pool after further back where
  toKept := first.toKept.trans later.toKept
  next := later.next
  prev := later.prev

theorem Kept.present (kept : Kept pool after) (address : Nat) :
    (after.pageAt address).isSome = (pool.pageAt address).isSome := by
  have same := congrFun kept.contents address
  simp only [MemoryPool.contents] at same
  rw [← Option.isSome_map, same, Option.isSome_map]

theorem present_of_prev {address prev : Nat} (linked : pool.prevOf address = some prev) :
    (pool.pageAt address).isSome := by
  obtain ⟨page, found, _⟩ := page_of_prev pool address linked
  simp [found]

theorem store_relinks (pool : MemoryPool blockSize) (address : Nat) (page new : Page)
    (found : pool.pageAt address = some page)
    (same : (new.availableStack, new.availableStackSize) =
      (page.availableStack, page.availableStackSize)) :
    Relinks pool (pool.store address new) (Function.update pool.nextOf address (some new.next))
      (Function.update pool.prevOf address (some new.prev)) where
  next := next_of_store pool address new
  prev := prev_of_store pool address new
  contents := by
    rw [contents_store, same, Function.update_eq_self_iff, contents, found]
    rfl
  allocated := by
    intro other
    by_cases own : other = address
    · subst other
      have there : pool.heap address ≠ none := by
        intro missing
        simp [pageAt, missing] at found
      simp [store, there]
    · simp [store, own]
  availablePages := rfl
  availablePagesSize := rfl
  unavailablePages := rfl
  unavailablePagesSize := rfl
  memoryPoolPageSize := rfl

theorem set_next_relinks (pool : MemoryPool blockSize) (address next : Nat)
    (present : (pool.pageAt address).isSome) :
    ∃ after, pool.setNext address next = .ok after ∧
      Relinks pool after (Function.update pool.nextOf address (some next)) pool.prevOf := by
  obtain ⟨page, found⟩ := Option.isSome_iff_exists.mp present
  have loaded := (load_ok_iff pool address page).mpr found
  have relinks := store_relinks pool address page { page with next := next } found rfl
  have same : Function.update pool.prevOf address (some page.prev) = pool.prevOf := by
    rw [Function.update_eq_self_iff, prevOf, found]
    rfl
  refine ⟨pool.store address { page with next := next }, ?_, ?_⟩
  · simp only [setNext, loaded, bind, Except.bind, pure, Except.pure]
  · rwa [same] at relinks

theorem set_prev_relinks (pool : MemoryPool blockSize) (address prev : Nat)
    (present : (pool.pageAt address).isSome) :
    ∃ after, pool.setPrev address prev = .ok after ∧
      Relinks pool after pool.nextOf (Function.update pool.prevOf address (some prev)) := by
  obtain ⟨page, found⟩ := Option.isSome_iff_exists.mp present
  have loaded := (load_ok_iff pool address page).mpr found
  have relinks := store_relinks pool address page { page with prev := prev } found rfl
  have same : Function.update pool.nextOf address (some page.next) = pool.nextOf := by
    rw [Function.update_eq_self_iff, nextOf, found]
    rfl
  refine ⟨pool.store address { page with prev := prev }, ?_, ?_⟩
  · simp only [setPrev, loaded, bind, Except.bind, pure, Except.pure]
  · rwa [same] at relinks

section Lists

theorem load_linked {pool : MemoryPool blockSize} {address next prev : Nat}
    (forward : pool.nextOf address = some next) (backward : pool.prevOf address = some prev) :
    ∃ page, pool.load address = .ok page ∧ page.next = next ∧ page.prev = prev := by
  obtain ⟨page, found, isNext⟩ := page_of_next pool address forward
  rw [prevOf, found] at backward
  exact ⟨page, (load_ok_iff pool address page).mpr found, isNext, Option.some.inj backward⟩

theorem load_prev {pool : MemoryPool blockSize} {address prev : Nat}
    (backward : pool.prevOf address = some prev) :
    ∃ page, pool.load address = .ok page ∧ page.prev = prev := by
  obtain ⟨page, found, isPrev⟩ := page_of_prev pool address backward
  exact ⟨page, (load_ok_iff pool address page).mpr found, isPrev⟩

theorem unlink_relinks (pool : MemoryPool blockSize) (curPage next prev : Nat)
    (forward : pool.nextOf curPage = some next) (backward : pool.prevOf curPage = some prev)
    (ahead : (pool.pageAt next).isSome) (behind : (pool.pageAt prev).isSome) :
    ∃ after, pool.unlink curPage = .ok after ∧
      Relinks pool after (Function.update pool.nextOf prev (some next))
        (Function.update pool.prevOf next (some prev)) := by
  obtain ⟨page, loaded, isNext, isPrev⟩ := load_linked forward backward
  obtain ⟨middle, first, relinks⟩ := set_prev_relinks pool next prev ahead
  have still : middle.prevOf curPage = some prev := by
    rw [relinks.prev]
    by_cases own : curPage = next
    · rw [own, Function.update_self]
    · rw [Function.update_of_ne own, backward]
  obtain ⟨again, loadedAgain, isNextAgain, isPrevAgain⟩ :=
    load_linked (relinks.next ▸ forward : middle.nextOf curPage = some next) still
  obtain ⟨after, second, relinksAfter⟩ := set_next_relinks middle prev next
    (by rwa [relinks.present])
  refine ⟨after, ?_, ?_⟩
  · simp only [unlink, loaded, isNext, isPrev, first, loadedAgain, isNextAgain, isPrevAgain, second,
      bind, Except.bind]
  · have both := relinks.trans relinksAfter
    rwa [relinks.next, relinks.prev] at both

theorem unlink_back_relinks (pool : MemoryPool blockSize) (curPage next prev : Nat)
    (forward : pool.nextOf curPage = some next) (backward : pool.prevOf curPage = some prev)
    (ahead : (pool.pageAt next).isSome) (behind : (pool.pageAt prev).isSome) :
    ∃ after, pool.unlinkBack curPage = .ok after ∧
      Relinks pool after (Function.update pool.nextOf prev (some next))
        (Function.update pool.prevOf next (some prev)) := by
  obtain ⟨page, loaded, isNext, isPrev⟩ := load_linked forward backward
  obtain ⟨middle, first, relinks⟩ := set_next_relinks pool prev next behind
  have still : middle.nextOf curPage = some next := by
    rw [relinks.next]
    by_cases own : curPage = prev
    · rw [own, Function.update_self]
    · rw [Function.update_of_ne own, forward]
  obtain ⟨again, loadedAgain, isNextAgain, isPrevAgain⟩ :=
    load_linked still (relinks.prev ▸ backward : middle.prevOf curPage = some prev)
  obtain ⟨after, second, relinksAfter⟩ := set_prev_relinks middle next prev
    (by rwa [relinks.present])
  refine ⟨after, ?_, ?_⟩
  · simp only [unlinkBack, loaded, isNext, isPrev, first, loadedAgain, isNextAgain, isPrevAgain,
      second, bind, Except.bind]
  · have both := relinks.trans relinksAfter
    rwa [relinks.next, relinks.prev] at both

theorem append_first (pool : MemoryPool blockSize) (pages : Option Nat) (curPage : Nat)
    (present : (pool.pageAt curPage).isSome) :
    ∃ after, pool.append 0 pages curPage = .ok (some curPage, after) ∧
      Relinks pool after (Function.update pool.nextOf curPage (some curPage))
        (Function.update pool.prevOf curPage (some curPage)) := by
  obtain ⟨middle, first, relinks⟩ := set_next_relinks pool curPage curPage present
  obtain ⟨after, second, relinksAfter⟩ := set_prev_relinks middle curPage curPage
    (by rwa [relinks.present])
  refine ⟨after, ?_, ?_⟩
  · simp only [append, first, second, ↓reduceIte, bind, Except.bind, pure, Except.pure]
  · have both := relinks.trans relinksAfter
    rwa [relinks.next, relinks.prev] at both

theorem append_last (pool : MemoryPool blockSize) (size head last curPage : Nat) (more : size ≠ 0)
    (backward : pool.prevOf head = some last) (other : head ≠ curPage)
    (present : (pool.pageAt curPage).isSome) (behind : (pool.pageAt last).isSome) :
    ∃ after, pool.append size (some head) curPage = .ok (some head, after) ∧
      Relinks pool after
        (Function.update (Function.update pool.nextOf curPage (some head)) last (some curPage))
        (Function.update (Function.update pool.prevOf curPage (some last)) head (some curPage)) := by
  have headPresent := present_of_prev backward
  obtain ⟨one, first, relinks⟩ := set_next_relinks pool curPage head present
  obtain ⟨page, loaded, isLast⟩ := load_prev (relinks.prev ▸ backward : one.prevOf head = some last)
  obtain ⟨two, second, relinksTwo⟩ := set_prev_relinks one curPage last (by rwa [relinks.present])
  have still : two.prevOf head = some last := by
    rw [relinksTwo.prev, Function.update_of_ne other, relinks.prev, backward]
  obtain ⟨again, loadedAgain, isLastAgain⟩ := load_prev still
  obtain ⟨three, third, relinksThree⟩ := set_next_relinks two last curPage
    (by rwa [relinksTwo.present, relinks.present])
  obtain ⟨after, fourth, relinksAfter⟩ := set_prev_relinks three head curPage
    (by rwa [relinksThree.present, relinksTwo.present, relinks.present])
  refine ⟨after, ?_, ?_⟩
  · simp only [append, more, ↓reduceIte, follow, first, loaded, isLast, second, loadedAgain,
      isLastAgain, third, fourth, bind, Except.bind, pure, Except.pure]
  · have all := ((relinks.trans relinksTwo).trans relinksThree).trans relinksAfter
    rwa [relinksThree.next, relinksThree.prev, relinksTwo.next, relinksTwo.prev, relinks.next,
      relinks.prev] at all

theorem ring_present {members : List Nat} (ring : Ring pool.nextOf pool.prevOf members)
    {address : Nat} (member : address ∈ members) : (pool.pageAt address).isSome := by
  obtain ⟨front, behind, rfl⟩ := List.append_of_mem member
  have following := ring_next address (behind ++ front) ((ring_front front behind address).mp ring)
  obtain ⟨page, found, _⟩ := page_of_next pool address following
  simp [found]

/-- What both ways to unlink a page leave: the ring without it, and any other
ring. -/
theorem unlinked_rings {curPage : Nat} {rest others : List Nat}
    (nodup : (curPage :: rest ++ others).Nodup)
    (ring : Ring pool.nextOf pool.prevOf (curPage :: rest))
    (apart : Ring pool.nextOf pool.prevOf others)
    (relinks : Relinks pool after
      (Function.update pool.nextOf (rest.getLastD curPage) (some (rest.headD curPage)))
      (Function.update pool.prevOf (rest.headD curPage) (some (rest.getLastD curPage)))) :
    Ring after.nextOf after.prevOf rest ∧ Ring after.nextOf after.prevOf others ∧
      after.nextOf curPage = pool.nextOf curPage := by
  obtain ⟨own, _, disjoint⟩ := List.nodup_append.mp nodup
  have outside : ∀ member ∈ others, ∀ page ∈ curPage :: rest, member ≠ page :=
    fun member inside page here => (disjoint page here member inside).symm
  have headInside : rest.headD curPage ∈ curPage :: rest := by
    cases rest <;> simp
  have stays : Ring after.nextOf after.prevOf others := by
    apply ring_transport others apart
    intro member inside
    rw [relinks.next, relinks.prev]
    exact ⟨Function.update_of_ne (outside member inside _ (last_mem curPage rest)) _ _,
      Function.update_of_ne (outside member inside _ headInside) _ _⟩
  cases rest with
  | nil =>
      refine ⟨ring_nil, stays, ?_⟩
      rw [relinks.next, ring_next curPage [] ring]
      exact Function.update_self _ _ _
  | cons first more =>
      rw [List.getLastD_cons, List.headD_cons] at relinks
      obtain ⟨fresh, rest⟩ := List.nodup_cons.mp own
      have lastInside : more.getLastD first ∈ first :: more := last_mem first more
      refine ⟨?_, stays, ?_⟩
      · apply ring_unlink curPage first more rest ring
        · intro member _ earlier
          rw [relinks.next, Function.update_of_ne earlier]
        · intro member inside
          have later : member ≠ first := fun same => (List.nodup_cons.mp rest).1 (same ▸ inside)
          rw [relinks.prev, Function.update_of_ne later]
        · rw [relinks.next, relinks.prev]
          exact ⟨Function.update_self _ _ _, Function.update_self _ _ _⟩
      · have other : curPage ≠ more.getLastD first := fun same => fresh (same ▸ lastInside)
        rw [relinks.next, Function.update_of_ne other]

theorem unlink_rings {curPage : Nat} {rest others : List Nat}
    (nodup : (curPage :: rest ++ others).Nodup)
    (ring : Ring pool.nextOf pool.prevOf (curPage :: rest))
    (apart : Ring pool.nextOf pool.prevOf others) :
    ∃ after, pool.unlink curPage = .ok after ∧ Kept pool after ∧
      Ring after.nextOf after.prevOf rest ∧ Ring after.nextOf after.prevOf others ∧
      after.nextOf curPage = pool.nextOf curPage := by
  have headInside : rest.headD curPage ∈ curPage :: rest := by
    cases rest <;> simp
  obtain ⟨after, ran, relinks⟩ := unlink_relinks pool curPage _ _ (ring_next curPage rest ring)
    (ring_prev curPage rest ring) (ring_present ring headInside)
    (ring_present ring (last_mem curPage rest))
  exact ⟨after, ran, relinks.toKept, unlinked_rings nodup ring apart relinks⟩

theorem unlink_back_rings {curPage : Nat} {rest others : List Nat}
    (nodup : (curPage :: rest ++ others).Nodup)
    (ring : Ring pool.nextOf pool.prevOf (curPage :: rest))
    (apart : Ring pool.nextOf pool.prevOf others) :
    ∃ after, pool.unlinkBack curPage = .ok after ∧ Kept pool after ∧
      Ring after.nextOf after.prevOf rest ∧ Ring after.nextOf after.prevOf others := by
  have headInside : rest.headD curPage ∈ curPage :: rest := by
    cases rest <;> simp
  obtain ⟨after, ran, relinks⟩ := unlink_back_relinks pool curPage _ _
    (ring_next curPage rest ring) (ring_prev curPage rest ring) (ring_present ring headInside)
    (ring_present ring (last_mem curPage rest))
  obtain ⟨without, stays, _⟩ := unlinked_rings nodup ring apart relinks
  exact ⟨after, ran, relinks.toKept, without, stays⟩

/-- A list of pages as the pool keeps it. The head of an empty list is
whatever it was. -/
structure PageList (pool : MemoryPool blockSize) (pages : Option Nat) (size : Nat)
    (members : List Nat) : Prop where
  head : members ≠ [] → pages = members.head?
  count : size = members.length
  ring : Ring pool.nextOf pool.prevOf members

theorem append_rings {pages : Option Nat} {size curPage : Nat} {members others : List Nat}
    (nodup : (curPage :: members ++ others).Nodup) (pageList : PageList pool pages size members)
    (apart : Ring pool.nextOf pool.prevOf others) (present : (pool.pageAt curPage).isSome) :
    ∃ head after, pool.append size pages curPage = .ok (head, after) ∧ Kept pool after ∧
      PageList after head (size + 1) (members ++ [curPage]) ∧
      Ring after.nextOf after.prevOf others := by
  obtain ⟨own, _, disjoint⟩ := List.nodup_append.mp nodup
  have outside : ∀ member ∈ others, ∀ page ∈ curPage :: members, member ≠ page :=
    fun member inside page here => (disjoint page here member inside).symm
  obtain ⟨fresh, distinct⟩ := List.nodup_cons.mp own
  obtain ⟨head, rfl, ring⟩ := pageList
  cases members with
  | nil =>
      obtain ⟨after, ran, relinks⟩ := append_first pool pages curPage present
      refine ⟨some curPage, after, ran, relinks.toKept, ⟨fun _ => rfl, rfl, ?_⟩, ?_⟩
      · apply ring_single
        · rw [relinks.next, Function.update_self]
        · rw [relinks.prev, Function.update_self]
      · apply ring_transport others apart
        intro member inside
        have other := outside member inside curPage List.mem_cons_self
        rw [relinks.next, relinks.prev, Function.update_of_ne other, Function.update_of_ne other]
        exact ⟨rfl, rfl⟩
  | cons first more =>
      have lastInside := last_mem first more
      have otherFirst : first ≠ curPage := fun same => fresh (same ▸ List.mem_cons_self)
      have otherLast : curPage ≠ more.getLastD first := fun same => fresh (same ▸ lastInside)
      have isHead := head (by simp)
      obtain ⟨after, ran, relinks⟩ := append_last pool (more.length + 1) first
        (more.getLastD first) curPage (by omega) (ring_prev first more ring) otherFirst present
        (ring_present ring lastInside)
      refine ⟨some first, after, ?_, relinks.toKept, ⟨fun _ => rfl, by simp, ?_⟩, ?_⟩
      · rw [isHead]
        exact ran
      · apply ring_link curPage first more distinct ring
        · intro member inside earlier
          have old : member ≠ curPage := fun same => fresh (same ▸ inside)
          rw [relinks.next, Function.update_of_ne earlier, Function.update_of_ne old]
        · intro member inside
          have later : member ≠ first :=
            fun same => (List.nodup_cons.mp distinct).1 (same ▸ inside)
          have old : member ≠ curPage :=
            fun same => fresh (same ▸ List.mem_cons_of_mem _ inside)
          rw [relinks.prev, Function.update_of_ne later, Function.update_of_ne old]
        · constructor
          · rw [relinks.next, Function.update_self]
          · rw [relinks.prev, Function.update_of_ne otherFirst.symm, Function.update_self]
        · constructor
          · rw [relinks.next, Function.update_of_ne otherLast, Function.update_self]
          · rw [relinks.prev, Function.update_self]
      · apply ring_transport others apart
        intro member inside
        have otherCur := outside member inside curPage List.mem_cons_self
        have ofFirst := outside member inside first (by simp)
        have ofLast := outside member inside _ (List.mem_cons_of_mem _ lastInside)
        rw [relinks.next, relinks.prev, Function.update_of_ne ofLast,
          Function.update_of_ne otherCur, Function.update_of_ne ofFirst,
          Function.update_of_ne otherCur]
        exact ⟨rfl, rfl⟩

end Lists

end DataStructures.MemoryPool
