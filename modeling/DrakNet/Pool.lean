import DrakNet.PageMoves

/-!
The calls of a pool. Between two of them the pages that are available have a
block to give away, the others have none, and of the pages with all their
blocks at most three are kept.
-/

namespace DataStructures.MemoryPool

open CString DrakNet Rings

variable {blockSize : Nat} {pool : MemoryPool blockSize} {perPage page : Nat}
  {held : List Block} {available unavailable : List Nat} {idle : Nat → List Block}

def whole (perPage : Nat) (idle : Nat → List Block) (page : Nat) : Bool :=
  (idle page).length = perPage

structure Sound (pool : MemoryPool blockSize) (perPage : Nat) (held : List Block)
    (available unavailable : List Nat) (idle : Nat → List Block) : Prop where
  books : Books pool perPage held available unavailable idle
  ready : ∀ page ∈ available, idle page ≠ []
  exhausted : ∀ page ∈ unavailable, idle page = []
  spare : available.countP (whole perPage idle) < DS_MEMORY_POOL_MAX_FREE_PAGES

def Good (pool : MemoryPool blockSize) (perPage : Nat) (held : List Block) : Prop :=
  ∃ available unavailable idle, Sound pool perPage held available unavailable idle

theorem no_pages_good (nothing : pool.heap = fun _ => none) (none : pool.availablePagesSize = 0)
    (neither : pool.unavailablePagesSize = 0) : Good pool pool.blocksPerPage [] := by
  refine ⟨[], [], fun _ => [], ⟨?_, ?_, ?_, ?_⟩, by simp, by simp,
    by simp [DS_MEMORY_POOL_MAX_FREE_PAGES]⟩
  · simp
  · exact ⟨by simp, none, ring_nil⟩
  · exact ⟨by simp, neither, ring_nil⟩
  · exact ⟨rfl, by simp [nothing], by simp, by simp⟩

theorem whole_others {stack : List Block} {pages : List Nat} (outside : page ∉ pages) :
    pages.countP (whole perPage (Function.update idle page stack)) =
      pages.countP (whole perPage idle) := by
  apply List.countP_congr
  intro other member
  have apart : other ≠ page := fun same => outside (same ▸ member)
  simp [whole, apart]

theorem Good.assert_room (build : Build) (good : Good pool perPage held)
    (more : pool.availablePagesSize ≠ 0) : pool.assertRoom build = .ok () := by
  obtain ⟨available, unavailable, idle, books, ready, _, _⟩ := good
  cases available with
  | nil => exact absurd books.availableList.count more
  | cons head rest =>
      exact books.stores.assert_room build head (books.availableList.head (by simp)) (by simp)
        (ready head (by simp))

section Restacked

variable {front behind : List Nat}

/-- The stack of `page` has changed, and it has not been moved yet. -/
structure Restacked (pool : MemoryPool blockSize) (perPage : Nat) (held : List Block)
    (front : List Nat) (page : Nat) (behind unavailable : List Nat) (idle : Nat → List Block) :
    Prop where
  books : Books pool perPage held (front ++ page :: behind) unavailable idle
  ready : ∀ other ∈ front ++ behind, idle other ≠ []
  exhausted : ∀ other ∈ unavailable, idle other = []
  spare : (front ++ behind).countP (whole perPage idle) < DS_MEMORY_POOL_MAX_FREE_PAGES

theorem restacked {after : MemoryPool blockSize} {others stack : List Block}
    (sound : Sound pool perPage held (front ++ page :: behind) unavailable idle)
    (books : Books after perPage others (front ++ page :: behind) unavailable
      (Function.update idle page stack)) :
    Restacked after perPage others front page behind unavailable
      (Function.update idle page stack) := by
  have spread := books.nodup
  rw [List.append_assoc, List.cons_append, List.nodup_middle, ← List.append_assoc] at spread
  obtain ⟨outside, _⟩ := List.nodup_cons.mp spread
  have elsewhere : ∀ other ∈ front ++ behind ++ unavailable,
      Function.update idle page stack other = idle other := by
    intro other member
    have apart : other ≠ page := by
      rintro rfl
      exact outside member
    exact Function.update_of_ne apart _ _
  refine ⟨books, ?_, ?_, ?_⟩
  · intro other member
    rw [elsewhere other (List.mem_append_left _ member)]
    apply sound.ready
    simp only [List.mem_append, List.mem_cons] at member ⊢
    tauto
  · intro other member
    rw [elsewhere other (List.mem_append_right _ member)]
    exact sound.exhausted other member
  · have spare := sound.spare
    rw [List.perm_middle.countP_eq, List.countP_cons] at spare
    rw [whole_others (fun inside => outside (List.mem_append_left _ inside))]
    omega

theorem restacked_kept
    (changed : Restacked pool perPage held front page behind unavailable idle)
    (filled : idle page ≠ [])
    (few : (idle page).length = perPage →
      pool.availablePagesSize < DS_MEMORY_POOL_MAX_FREE_PAGES) : Good pool perPage held := by
  obtain ⟨books, ready, exhausted, spare⟩ := changed
  refine ⟨front ++ page :: behind, unavailable, idle, books, ?_, exhausted, ?_⟩
  · intro other member
    rcases List.mem_append.mp member with before | after
    · exact ready other (List.mem_append_left _ before)
    · rcases List.mem_cons.mp after with rfl | later
      · exact filled
      · exact ready other (List.mem_append_right _ later)
  · by_cases full : (idle page).length = perPage
    · have fewPages := few full
      rw [books.availableList.count] at fewPages
      exact Nat.lt_of_le_of_lt List.countP_le_length fewPages
    · have lent : whole perPage idle page = false := by simpa [whole] using full
      rw [List.perm_middle.countP_eq, List.countP_cons_of_neg (by simp [lent])]
      exact spare

theorem restacked_retired (build : Build)
    (changed : Restacked pool perPage held [] page behind unavailable idle)
    (none : idle page = []) :
    ∃ after, pool.retire build page = .ok after ∧ Good after perPage held := by
  obtain ⟨books, ready, exhausted, spare⟩ := changed
  obtain ⟨after, retired, booksAfter⟩ := retire_books build books ready
  refine ⟨after, retired, behind, unavailable ++ [page], idle, booksAfter, ready, ?_, spare⟩
  intro other member
  rcases List.mem_append.mp member with older | own
  · exact exhausted other older
  · rw [List.mem_singleton.mp own, none]

theorem restacked_discarded (build : Build)
    (changed : Restacked pool perPage held front page behind unavailable idle)
    (full : (idle page).length = perPage)
    (many : DS_MEMORY_POOL_MAX_FREE_PAGES ≤ pool.availablePagesSize) :
    ∃ after, pool.discard build page = .ok after ∧ Good after perPage held := by
  obtain ⟨books, ready, exhausted, spare⟩ := changed
  have others : front ++ behind ≠ [] := by
    apply List.ne_nil_of_length_pos
    rw [books.availableList.count, DS_MEMORY_POOL_MAX_FREE_PAGES] at many
    simp only [List.length_append, List.length_cons] at many ⊢
    omega
  obtain ⟨after, discarded, booksAfter⟩ := discard_books build books full others ready
  exact ⟨after, discarded, front ++ behind, unavailable, idle, booksAfter, ready, exhausted, spare⟩

end Restacked

/-- `Allocate` takes a block of the page in front. Where it was the page's
last, the page goes. -/
theorem allocate_from_page (build : Build) (mallocs : Mallocs)
    (sound : Sound pool perPage held (page :: available) unavailable idle) :
    ∃ block after, pool.allocate build mallocs = .ok (some block, after) ∧ block ∉ held ∧
      Good after perPage (block :: held) := by
  have books := sound.books
  obtain ⟨front, block, stack⟩ : ∃ front block, idle page = front ++ [block] :=
    (List.eq_nil_or_concat' (idle page)).resolve_left (sound.ready page (by simp))
  obtain ⟨found, loaded, size, topped, fresh, taken⟩ := books.take (by simp) stack
  have pages := books.availableList.head (by simp)
  have some : 0 < pool.availablePagesSize := by
    rw [books.availableList.count]
    simp
  have left : found.availableStackSize - 1 = front.length := by omega
  have changed : Restacked (pool.store page { found with availableStackSize := front.length })
      perPage (block :: held) [] page available unavailable (Function.update idle page front) :=
    restacked sound taken
  by_cases last : front = []
  · subst front
    obtain ⟨after, retired, good⟩ := restacked_retired build changed (Function.update_self _ _ _)
    refine ⟨block, after, ?_, fresh, good⟩
    rw [List.length_nil] at left retired
    simp only [allocate, some, ↓reduceIte, pages, List.head?_cons, follow, loaded, topped, left,
      retired, bind, Except.bind]
    split
    · next more => simp only [good.assert_room build more, pure, Except.pure]
    · rfl
  · have good : Good (pool.store page { found with availableStackSize := front.length }) perPage
        (block :: held) := by
      refine restacked_kept changed (by rwa [Function.update_self]) ?_
      intro full
      have count := (books.stores.stocked page (by simp)).length
      rw [stack, List.length_append, List.length_singleton] at count
      rw [Function.update_self] at full
      omega
    refine ⟨block, _, ?_, fresh, good⟩
    have more : front.length ≠ 0 := by simpa using last
    simp only [allocate, some, ↓reduceIte, pages, List.head?_cons, follow, loaded, topped, left,
      more, bind, Except.bind, pure, Except.pure]
    split
    · next more => simp only [good.assert_room build more]
    · rfl

theorem init_page_ok (mallocs : Mallocs) (size : pool.blocksPerPage = perPage)
    (front : pool.availablePages = some page)
    (filled : (mallocs.block && mallocs.availableStack) = true) :
    pool.initPage page page mallocs = .ok (true, pool.store page
      { availableStack := blocksOf page perPage
        availableStackSize := perPage
        next := page
        prev := page }) := by
  subst size
  simp only [initPage, filled, ↓reduceIte, front, follow, bind, Except.bind, pure, Except.pure]
  rfl

theorem allocate_from_heap (build : Build) (mallocs : Mallocs) (roomy : 1 < perPage)
    (sound : Sound pool perPage held [] unavailable idle) (fresh : pool.heap page = none)
    (given : mallocs.page = some page)
    (filled : (mallocs.block && mallocs.availableStack) = true) :
    ∃ block after, pool.allocate build mallocs = .ok (some block, after) ∧ block ∉ held ∧
      Good after perPage (block :: held) := by
  obtain ⟨books, _, exhausted, spare⟩ := sound
  have begun := fresh_books books fresh
  obtain ⟨front, block, stack⟩ : ∃ front block, blocksOf page perPage = front ++ [block] := by
    refine (List.eq_nil_or_concat' (blocksOf page perPage)).resolve_left ?_
    apply List.ne_nil_of_length_pos
    rw [blocks_of_length]
    omega
  have count : front.length + 1 = perPage := by
    rw [← blocks_of_length page perPage, stack, List.length_append, List.length_singleton]
  obtain ⟨found, loaded, size, topped, unheld, taken⟩ :=
    begun.take (by simp) ((Function.update_self _ _ _).trans stack)
  have none : pool.availablePagesSize = 0 := books.availableList.count
  have outside : page ∉ unavailable := fun member => (books.stores.allocated page).mpr member fresh
  have left : found.availableStackSize - 1 = front.length := by omega
  have asserted : Queue.check build (decide (1 < found.availableStackSize)) = .ok () :=
    Queue.check_true build (by simpa using (by omega : 1 < found.availableStackSize))
  refine ⟨block, _, ?_, unheld, [page], unavailable, _, taken, ?_, ?_, ?_⟩
  · have initialized : initPage ({ pool with
        heap := Function.update pool.heap page (some Option.none)
        availablePages := some page
        availablePagesSize := 1 } : MemoryPool blockSize) page page mallocs = _ :=
      init_page_ok mallocs books.stores.size rfl filled
    simp only [allocate, none, given, initialized, loaded, asserted, topped, left, bind, Except.bind,
      pure, Except.pure, Nat.lt_irrefl, ↓reduceIte, Bool.not_true, Bool.false_eq_true]
  · intro other member
    rw [List.mem_singleton.mp member, Function.update_self]
    apply List.ne_nil_of_length_pos
    omega
  · intro other member
    have apart : other ≠ page := by
      rintro rfl
      exact outside member
    rw [Function.update_of_ne apart, Function.update_of_ne apart]
    exact exhausted other member
  · refine Nat.lt_of_le_of_lt List.countP_le_length ?_
    simp [DS_MEMORY_POOL_MAX_FREE_PAGES]

theorem release_exhausted (build : Build) (roomy : 1 < perPage) {block : Block}
    {front behind : List Nat}
    (sound : Sound pool perPage held available (front ++ block.parentPage :: behind) idle)
    (member : block ∈ held) :
    ∃ after, pool.release build block = .ok after ∧ Good after perPage (held.erase block) := by
  obtain ⟨books, ready, exhausted, spare⟩ := sound
  obtain ⟨found, filled, loaded, size, stacked, _, put⟩ := books.put member
  have none := exhausted block.parentPage (by simp)
  rw [none] at size put
  obtain ⟨after, revived, booksAfter⟩ := revive_books put
  have spread := books.nodup
  rw [← List.append_assoc, List.nodup_middle, List.append_assoc] at spread
  obtain ⟨outside, _⟩ := List.nodup_cons.mp spread
  have elsewhere : ∀ other ∈ available ++ (front ++ behind),
      Function.update idle block.parentPage [block] other = idle other := by
    intro other member
    have apart : other ≠ block.parentPage := by
      rintro rfl
      exact outside member
    exact Function.update_of_ne apart _ _
  refine ⟨after, ?_, available ++ [block.parentPage], front ++ behind, _, booksAfter, ?_, ?_, ?_⟩
  · simp only [release, loaded, stacked, size, List.length_nil, ↓reduceIte, revived, bind,
      Except.bind]
  · intro other member
    rcases List.mem_append.mp member with older | own
    · rw [List.nil_append, elsewhere other (List.mem_append_left _ older)]
      exact ready other older
    · rw [List.mem_singleton.mp own, Function.update_self]
      simp
  · intro other member
    rw [List.nil_append, elsewhere other (List.mem_append_right _ member)]
    apply exhausted
    simp only [List.mem_append, List.mem_cons] at member ⊢
    tauto
  · have one : whole perPage (Function.update idle block.parentPage [block]) block.parentPage =
        false := by
      simp only [whole, Function.update_self, List.length_singleton, decide_eq_false_iff_not]
      omega
    rw [List.nil_append, List.countP_append, List.countP_singleton, one,
      whole_others (fun inside => outside (List.mem_append_left _ inside))]
    simpa using spare

/-- `Release` into a page that has other blocks to give away: the page stays,
or goes for good. -/
theorem release_available (build : Build) {block : Block} {front behind : List Nat}
    (sound : Sound pool perPage held (front ++ block.parentPage :: behind) unavailable idle)
    (member : block ∈ held) :
    ∃ after, pool.release build block = .ok after ∧ Good after perPage (held.erase block) := by
  obtain ⟨found, filled, loaded, size, stacked, newSize, put⟩ := sound.books.put member
  have changed := restacked sound put
  have more : found.availableStackSize ≠ 0 := by
    rw [size]
    simpa using sound.ready block.parentPage (by simp)
  have sameSize : blocksPerPage (pool.store block.parentPage filled) = perPage :=
    put.stores.size
  have stack : (Function.update idle block.parentPage (idle block.parentPage ++ [block])
      block.parentPage).length = filled.availableStackSize := by
    rw [Function.update_self, newSize, List.length_append, List.length_singleton]
  by_cases gone : filled.availableStackSize = blocksPerPage (pool.store block.parentPage filled) ∧
      DS_MEMORY_POOL_MAX_FREE_PAGES ≤ (pool.store block.parentPage filled).availablePagesSize
  · obtain ⟨after, discarded, goodAfter⟩ := restacked_discarded build changed
      (stack.trans (gone.1.trans sameSize)) gone.2
    refine ⟨after, ?_, goodAfter⟩
    simp only [release, loaded, stacked, more, gone, discarded, ↓reduceIte, bind, Except.bind,
      and_self]
  · refine ⟨_, ?_, restacked_kept changed (by simp) ?_⟩
    · simp only [release, loaded, stacked, more, gone, ↓reduceIte, bind, Except.bind, pure,
        Except.pure]
    · intro full
      rw [stack] at full
      exact Nat.lt_of_not_le (fun many => gone ⟨full.trans sameSize.symm, many⟩)

theorem release_good (build : Build) (roomy : 1 < perPage) (good : Good pool perPage held)
    {block : Block} (member : block ∈ held) :
    ∃ after, pool.release build block = .ok after ∧ Good after perPage (held.erase block) := by
  obtain ⟨available, unavailable, idle, sound⟩ := good
  rcases List.mem_append.mp (sound.books.stores.owned block member) with here | there
  · obtain ⟨front, behind, rfl⟩ := List.append_of_mem here
    exact release_available build sound member
  · obtain ⟨front, behind, rfl⟩ := List.append_of_mem there
    exact release_exhausted build roomy sound member

theorem clear_good (good : Good pool perPage held) :
    ∃ after, pool.clear = .ok after ∧ Good after perPage [] ∧ after.heap = fun _ => none := by
  obtain ⟨available, unavailable, idle, sound⟩ := good
  refine ⟨_, clear_empties sound.books, ?_, rfl⟩
  rw [← sound.books.stores.size]
  exact no_pages_good rfl rfl rfl

end DataStructures.MemoryPool
