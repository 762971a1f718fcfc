import DrakNet.PageLists

/-!
What a pool owes its caller. Each page has the blocks that nobody holds on its
stack; `Books` says so of all pages, together with the two lists they are in.
Blocks are taken and put back, and pages move, each with a lemma of its own.
-/

namespace DataStructures.MemoryPool

open CString DrakNet Rings

variable {blockSize : Nat}

section Stocks

def blocksOf (page count : Nat) : List Block := (List.range count).map (Block.mk page)

def heldOf (held : List Block) (page : Nat) : List Block :=
  held.filter fun block => block.parentPage = page

/-- `idle` are the blocks on the stack of a page, the last one on top; the
rest of the stack is left over from earlier. -/
structure Stocked (pool : MemoryPool blockSize) (perPage : Nat) (held : List Block) (page : Nat)
    (idle : List Block) : Prop where
  stack : ∃ rest, pool.contents page = some (idle ++ rest, idle.length) ∧
    (idle ++ rest).length = perPage
  all : (idle ++ heldOf held page).Perm (blocksOf page perPage)

structure Stores (pool : MemoryPool blockSize) (perPage : Nat) (held : List Block)
    (pages : List Nat) (idle : Nat → List Block) : Prop where
  size : pool.blocksPerPage = perPage
  allocated : ∀ page, pool.heap page ≠ none ↔ page ∈ pages
  stocked : ∀ page ∈ pages, Stocked pool perPage held page (idle page)
  owned : ∀ block ∈ held, block.parentPage ∈ pages

structure Books (pool : MemoryPool blockSize) (perPage : Nat) (held : List Block)
    (available unavailable : List Nat) (idle : Nat → List Block) : Prop where
  nodup : (available ++ unavailable).Nodup
  availableList : PageList pool pool.availablePages pool.availablePagesSize available
  unavailableList : PageList pool pool.unavailablePages pool.unavailablePagesSize unavailable
  stores : Stores pool perPage held (available ++ unavailable) idle

variable {pool after : MemoryPool blockSize} {perPage page : Nat} {held idle : List Block}

theorem blocks_of_nodup (page count : Nat) : (blocksOf page count).Nodup := by
  apply List.nodup_range.map
  intro left right same
  exact (Block.mk.inj same).2

theorem blocks_of_length (page count : Nat) : (blocksOf page count).length = count := by
  simp [blocksOf]

theorem mem_blocks_of (page count : Nat) (block : Block) :
    block ∈ blocksOf page count ↔ block.parentPage = page ∧ block.index < count := by
  rcases block with ⟨parent, index⟩
  simp only [blocksOf, List.mem_map, List.mem_range, Block.mk.injEq]
  constructor
  · rintro ⟨place, inside, rfl, rfl⟩
    exact ⟨rfl, inside⟩
  · rintro ⟨rfl, inside⟩
    exact ⟨index, inside, rfl, rfl⟩

theorem mem_held_of (page : Nat) (block : Block) :
    block ∈ heldOf held page ↔ block ∈ held ∧ block.parentPage = page := by
  simp [heldOf]

theorem held_of_cons_own (block : Block) (held : List Block) :
    heldOf (block :: held) block.parentPage = block :: heldOf held block.parentPage := by
  simp [heldOf]

theorem held_of_cons_other (block : Block) (held : List Block) (other : block.parentPage ≠ page) :
    heldOf (block :: held) page = heldOf held page := by
  simp [heldOf, other]

theorem held_of_erase (block : Block) (member : block ∈ held) (page : Nat) :
    (heldOf held page).Perm (heldOf (block :: held.erase block) page) :=
  (List.perm_cons_erase member).filter _

theorem Stocked.kept {other : Nat} (stocked : Stocked pool perPage held other idle)
    (same : after.contents other = pool.contents other) : Stocked after perPage held other idle where
  stack := same ▸ stocked.stack
  all := stocked.all

theorem Stocked.relent {others : List Block} (stocked : Stocked pool perPage held page idle)
    (same : (heldOf held page).Perm (heldOf others page)) :
    Stocked pool perPage others page idle where
  stack := stocked.stack
  all := (same.symm.append_left idle).trans stocked.all

theorem Stocked.length (stocked : Stocked pool perPage held page idle) :
    idle.length + (heldOf held page).length = perPage := by
  have count := stocked.all.length_eq
  rwa [List.length_append, blocks_of_length] at count

theorem Stocked.nodup (stocked : Stocked pool perPage held page idle) :
    (idle ++ heldOf held page).Nodup :=
  stocked.all.nodup_iff.mpr (blocks_of_nodup page perPage)

theorem Stocked.page_of_idle (stocked : Stocked pool perPage held page idle) {block : Block}
    (member : block ∈ idle) : block.parentPage = page := by
  have inside := stocked.all.subset (List.mem_append_left _ member)
  exact ((mem_blocks_of page perPage block).mp inside).1

theorem Stocked.loaded (stocked : Stocked pool perPage held page idle) :
    ∃ found rest, pool.pageAt page = some found ∧ pool.load page = .ok found ∧
      found.availableStack = idle ++ rest ∧ found.availableStackSize = idle.length ∧
      idle.length + rest.length = perPage := by
  obtain ⟨rest, contents, length⟩ := stocked.stack
  obtain ⟨found, here, same⟩ := Option.map_eq_some_iff.mp contents
  obtain ⟨stack, size⟩ := Prod.mk.inj same
  exact ⟨found, rest, here, (load_ok_iff pool page found).mpr here, stack, size,
    by rwa [List.length_append] at length⟩

theorem Stores.moved {idle : Nat → List Block} {pages others : List Nat}
    (stores : Stores pool perPage held pages idle) (contents : after.contents = pool.contents)
    (allocated : ∀ address, after.heap address = none ↔ pool.heap address = none)
    (size : after.memoryPoolPageSize = pool.memoryPoolPageSize) (same : pages.Perm others) :
    Stores after perPage held others idle where
  size := by
    rw [← stores.size, blocksPerPage, blocksPerPage, size]
  allocated := by
    intro address
    rw [ne_eq, allocated, ← same.mem_iff]
    exact stores.allocated address
  stocked := by
    intro address member
    exact (stores.stocked address (same.mem_iff.mpr member)).kept (congrFun contents address)
  owned := by
    intro block member
    exact same.mem_iff.mp (stores.owned block member)

end Stocks

section Blocks

variable {pool : MemoryPool blockSize} {perPage page : Nat} {held : List Block}
  {available unavailable : List Nat} {idle : Nat → List Block}

theorem top_found (found : Page) (front rest : List Block) (block : Block)
    (stack : found.availableStack = front ++ block :: rest)
    (size : found.availableStackSize = front.length + 1) : top found = .ok block := by
  simp only [top, size, stack, List.getElem?_append_right (Nat.le_refl _), Nat.sub_self,
    List.getElem?_cons_zero]

theorem ring_store {found new : Page} {members : List Nat}
    (ring : Ring pool.nextOf pool.prevOf members) (here : pool.pageAt page = some found)
    (next : new.next = found.next) (prev : new.prev = found.prev) :
    Ring (pool.store page new).nextOf (pool.store page new).prevOf members := by
  have sameNext : (pool.store page new).nextOf = pool.nextOf := by
    rw [next_of_store, Function.update_eq_self_iff, nextOf, here, next]
    rfl
  have samePrev : (pool.store page new).prevOf = pool.prevOf := by
    rw [prev_of_store, Function.update_eq_self_iff, prevOf, here, prev]
    rfl
  rw [sameNext, samePrev]
  exact ring

/-- What one page gets on its stack, the caller loses, or the other way
round. -/
theorem Books.restocked {others : List Block} {stack : List Block} {found new : Page}
    (books : Books pool perPage held available unavailable idle)
    (here : pool.pageAt page = some found) (next : new.next = found.next)
    (prev : new.prev = found.prev) (stocked : Stocked (pool.store page new) perPage others page stack)
    (same : ∀ other, other ≠ page → (heldOf held other).Perm (heldOf others other))
    (owned : ∀ block ∈ others, block.parentPage ∈ available ++ unavailable) :
    Books (pool.store page new) perPage others available unavailable
      (Function.update idle page stack) where
  nodup := books.nodup
  availableList := ⟨books.availableList.head, books.availableList.count,
    ring_store books.availableList.ring here next prev⟩
  unavailableList := ⟨books.unavailableList.head, books.unavailableList.count,
    ring_store books.unavailableList.ring here next prev⟩
  stores :=
    { size := books.stores.size
      allocated := by
        intro address
        by_cases own : address = page
        · subst address
          have there : pool.heap page ≠ none := by
            intro missing
            simp [pageAt, missing] at here
          simpa [store] using (books.stores.allocated page).mp there
        · rw [← books.stores.allocated address]
          simp [store, own]
      stocked := by
        intro address member
        by_cases own : address = page
        · subst address
          rwa [Function.update_self]
        · rw [Function.update_of_ne own]
          apply ((books.stores.stocked address member).relent (same address own)).kept
          rw [contents_store, Function.update_of_ne own]
      owned := owned }

theorem Books.take (books : Books pool perPage held available unavailable idle)
    (member : page ∈ available ++ unavailable) {front : List Block} {block : Block}
    (stack : idle page = front ++ [block]) :
    ∃ found, pool.load page = .ok found ∧ found.availableStackSize = front.length + 1 ∧
      top found = .ok block ∧ block ∉ held ∧
      Books (pool.store page { found with availableStackSize := front.length }) perPage
        (block :: held) available unavailable (Function.update idle page front) := by
  have stocked := books.stores.stocked page member
  rw [stack] at stocked
  obtain ⟨found, rest, here, loaded, found_stack, size, length⟩ := stocked.loaded
  have own : block.parentPage = page := stocked.page_of_idle (by simp)
  have moved : found.availableStack = front ++ block :: rest := by
    rw [found_stack, List.append_assoc, List.singleton_append]
  rw [List.length_append, List.length_singleton] at size length
  have outside : block ∉ held := by
    intro inside
    have disjoint := (List.nodup_append.mp stocked.nodup).2.2
    exact disjoint block (by simp) block ((mem_held_of page block).mpr ⟨inside, own⟩) rfl
  refine ⟨found, loaded, size, top_found found front rest block moved size, outside, ?_⟩
  refine books.restocked here (by rfl) (by rfl) ?_ ?_ ?_
  · constructor
    · refine ⟨block :: rest, ?_, ?_⟩
      · rw [contents_store, Function.update_self, moved]
      · simp
        omega
    · rw [← own, held_of_cons_own, own]
      refine List.Perm.trans ?_ stocked.all
      simp
  · intro other apart
    rw [held_of_cons_other block held (own ▸ apart.symm)]
  · intro other inside
    rcases List.mem_cons.mp inside with rfl | older
    · rwa [own]
    · exact books.stores.owned other older

theorem Stocked.put {block : Block} {idle : List Block}
    (stocked : Stocked pool perPage held block.parentPage idle) (member : block ∈ held) :
    ∃ found filled, pool.pageAt block.parentPage = some found ∧
      found.availableStackSize = idle.length ∧ pushed found block = .ok filled ∧
      filled.availableStackSize = idle.length + 1 ∧ filled.next = found.next ∧
      filled.prev = found.prev ∧
      Stocked (pool.store block.parentPage filled) perPage (held.erase block) block.parentPage
        (idle ++ [block]) := by
  obtain ⟨found, rest, here, loaded, stack, size, length⟩ := stocked.loaded
  have own := held_of_erase block member block.parentPage
  rw [held_of_cons_own] at own
  have lent : rest ≠ [] := by
    have total := stocked.length
    have positive := own.length_eq
    rw [List.length_cons] at positive
    exact List.ne_nil_of_length_pos (by omega)
  obtain ⟨old, rest, rfl⟩ := List.exists_cons_of_ne_nil lent
  have room : found.availableStackSize < found.availableStack.length := by
    rw [size, stack]
    simp
  refine ⟨found, _, here, size, if_pos room, by simp [size], rfl, rfl, ?_, ?_⟩
  · refine ⟨rest, ?_, ?_⟩
    · rw [contents_store, Function.update_self]
      simp [stack, size]
    · simp at length ⊢
      omega
  · refine List.Perm.trans ?_ stocked.all
    rw [List.append_assoc]
    exact own.symm.append_left _

theorem Books.put (books : Books pool perPage held available unavailable idle) {block : Block}
    (member : block ∈ held) :
    ∃ found filled, pool.load block.parentPage = .ok found ∧
      found.availableStackSize = (idle block.parentPage).length ∧
      pushed found block = .ok filled ∧
      filled.availableStackSize = (idle block.parentPage).length + 1 ∧
      Books (pool.store block.parentPage filled) perPage (held.erase block) available unavailable
        (Function.update idle block.parentPage (idle block.parentPage ++ [block])) := by
  have stocked := books.stores.stocked _ (books.stores.owned block member)
  obtain ⟨found, filled, here, size, stacked, newSize, next, prev, restocked⟩ := stocked.put member
  refine ⟨found, filled, (load_ok_iff pool _ found).mpr here, size, stacked, newSize, ?_⟩
  refine books.restocked here next prev restocked ?_ ?_
  · intro other apart
    have same := held_of_erase block member other
    rwa [held_of_cons_other block _ apart.symm] at same
  · intro other kept
    exact books.stores.owned other (List.mem_of_mem_erase kept)

end Blocks

end DataStructures.MemoryPool
