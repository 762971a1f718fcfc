import DrakNet.Pool
import DrakNet.Runs

/-!
A pool from its constructor to its destructor, which calls `Clear`. The caller
gives back what it got and nothing twice; rakMalloc never hands out a page that
is still in use. If it hands out a page but neither blocks nor stack for it,
`Allocate` returns 0 and leaves that page at the head of the list.
-/

namespace DataStructures.MemoryPool

open CString DrakNet Rings Runs

variable {blockSize : Nat}

structure Use (blockSize : Nat) where
  pool : MemoryPool blockSize
  held : List Block

inductive Call where
  | allocate (mallocs : Mallocs)
  | release (m : Block)
  | clear

def serve (build : Build) (use : Use blockSize) :
    Call → Except Failure (Option Block × Use blockSize)
  | .allocate mallocs => do
      let (block, pool) ← use.pool.allocate build mallocs
      return (block, { pool := pool, held := block.toList ++ use.held })
  | .release m => do
      let pool ← use.pool.release build m
      return (none, { pool := pool, held := use.held.erase m })
  | .clear => do
      let pool ← use.pool.clear
      return (none, { pool := pool, held := [] })

def Proper (use : Use blockSize) : Call → Prop
  | .allocate mallocs => ∀ page, mallocs.page = some page → use.pool.heap page = none
  | .release m => m ∈ use.held
  | .clear => True

/-- rakMalloc gives a page and then refuses what belongs into it. -/
def Starves (use : Use blockSize) : Call → Prop
  | .allocate mallocs => use.pool.availablePagesSize = 0 ∧ mallocs.page.isSome ∧
      (mallocs.block && mallocs.availableStack) = false
  | _ => False

def opened (size : Nat) : Use blockSize :=
  { pool := empty.setPageSize size, held := [] }

section Starved

variable {pool : MemoryPool blockSize} {perPage page : Nat} {held : List Block}
  {unavailable : List Nat} {idle : Nat → List Block}

structure Starved (pool : MemoryPool blockSize) (perPage : Nat) (held : List Block) (page : Nat)
    (unavailable : List Nat) : Prop where
  front : pool.availablePages = some page
  size : pool.availablePagesSize = 1
  unwritten : pool.pageAt page = none
  nodup : (page :: unavailable).Nodup
  allocated : ∀ other, pool.heap other ≠ none ↔ other ∈ page :: unavailable
  ring : Ring pool.nextOf pool.prevOf unavailable
  stocked : ∀ other ∈ unavailable, Stocked pool perPage held other []
  owned : ∀ block ∈ held, block.parentPage ∈ unavailable

theorem load_unwritten (unwritten : pool.pageAt page = none) :
    pool.load page = .error (.fault .readPast) := by
  unfold load pageAt at *
  rcases found : pool.heap page with _ | _ | written
  · rfl
  · rfl
  · simp [found] at unwritten

theorem Kept.unwritten {after : MemoryPool blockSize} (kept : Kept pool after)
    (unwritten : pool.pageAt page = none) : after.pageAt page = none := by
  have same := kept.present page
  simpa [unwritten] using same

theorem append_unwritten {size curPage : Nat} (more : size ≠ 0)
    (present : (pool.pageAt curPage).isSome) (unwritten : pool.pageAt page = none) :
    pool.append size (some page) curPage = .error (.fault .readPast) := by
  obtain ⟨after, ran, relinks⟩ := set_next_relinks pool curPage page present
  have lost := load_unwritten (relinks.toKept.unwritten unwritten)
  simp only [append, more, ↓reduceIte, follow, ran, lost, bind, Except.bind]

theorem allocate_starved (build : Build) (mallocs : Mallocs)
    (starved : Starved pool perPage held page unavailable) :
    pool.allocate build mallocs = .error (.fault .readPast) := by
  simp only [allocate, starved.size, starved.front, Nat.zero_lt_one, ↓reduceIte, follow,
    load_unwritten starved.unwritten, bind, Except.bind]

theorem clear_starved (starved : Starved pool perPage held page unavailable) :
    pool.clear = .error (.fault .readPast) := by
  simp only [clear, clearList, starved.size, starved.front, Nat.zero_lt_one, ↓reduceIte, follow,
    clearFrom, load_unwritten starved.unwritten, bind, Except.bind]

theorem release_starved (build : Build) {block : Block}
    (starved : Starved pool perPage held page unavailable) (member : block ∈ held) :
    pool.release build block = .error (.fault .readPast) := by
  obtain ⟨front, behind, rfl⟩ := List.append_of_mem (starved.owned block member)
  have stocked := starved.stocked block.parentPage (by simp)
  obtain ⟨found, filled, here, size, stacked, _, next, prev, _⟩ := stocked.put member
  have loaded := (load_ok_iff pool block.parentPage found).mpr here
  let shrunk : MemoryPool blockSize :=
    { pool.store block.parentPage filled with
      unavailablePagesSize := (pool.store block.parentPage filled).unavailablePagesSize - 1 }
  have shrunkRing : Ring shrunk.nextOf shrunk.prevOf (block.parentPage :: (behind ++ front)) :=
    (ring_front front behind block.parentPage).mp (ring_store starved.ring here next prev)
  have turned : (block.parentPage :: (behind ++ front) ++ []).Nodup := by
    rw [List.append_nil]
    exact (List.isRotated_append.nodup_iff).mp (List.nodup_cons.mp starved.nodup).2
  obtain ⟨middle, unlinked, kept, _⟩ := unlink_rings turned shrunkRing ring_nil
  have present : (middle.pageAt block.parentPage).isSome := by
    rw [kept.present]
    exact ring_present shrunkRing List.mem_cons_self
  obtain ⟨again, foundAgain⟩ := Option.isSome_iff_exists.mp present
  have loadedAgain := (load_ok_iff middle block.parentPage again).mpr foundAgain
  have lost : middle.pageAt page = none := by
    apply kept.unwritten
    have other : page ≠ block.parentPage := by
      rintro rfl
      rw [starved.unwritten] at here
      contradiction
    exact (page_at_store pool block.parentPage filled page).trans
      ((if_neg other).trans starved.unwritten)
  let headed : MemoryPool blockSize :=
    { middle with
      unavailablePages :=
        if 0 < middle.unavailablePagesSize ∧ middle.unavailablePages = some block.parentPage
          then some again.next else middle.unavailablePages }
  have headedPresent : (headed.pageAt block.parentPage).isSome := present
  have failed := append_unwritten Nat.one_ne_zero headedPresent lost
  have headSize : middle.availablePagesSize = 1 := kept.availablePagesSize.trans starved.size
  have headFront : middle.availablePages = some page := kept.availablePages.trans starved.front
  simp only [shrunk] at unlinked
  simp only [headed, headSize, headFront] at failed
  have empty : found.availableStackSize = 0 := size
  simp only [release, loaded, stacked, empty, ↓reduceIte, revive, unlinked, loadedAgain, headSize,
    headFront, failed, bind, Except.bind]

theorem allocate_refused (build : Build) (mallocs : Mallocs)
    (sound : Sound pool perPage held [] unavailable idle) (refused : mallocs.page = none) :
    ∃ after, pool.allocate build mallocs = .ok (none, after) ∧ Good after perPage held := by
  obtain ⟨⟨nodup, available, unavailableList, stores⟩, ready, exhausted, spare⟩ := sound
  have nothing : pool.availablePagesSize = 0 := available.count
  refine ⟨{ pool with availablePages := none }, ?_, [], unavailable, idle, ⟨nodup, ?_, ?_, ?_⟩,
    ready, exhausted, spare⟩
  · simp only [allocate, nothing, Nat.lt_irrefl, ↓reduceIte, refused, pure, Except.pure]
  · exact ⟨by simp, available.count, ring_nil⟩
  · exact ⟨unavailableList.head, unavailableList.count, unavailableList.ring⟩
  · exact stores.moved rfl (fun _ => Iff.rfl) rfl (List.Perm.refl _)

theorem allocate_starves (build : Build) (mallocs : Mallocs)
    (sound : Sound pool perPage held [] unavailable idle) (fresh : pool.heap page = none)
    (given : mallocs.page = some page)
    (short : (mallocs.block && mallocs.availableStack) = false) :
    ∃ after, pool.allocate build mallocs = .ok (none, after) ∧
      Starved after perPage held page unavailable := by
  obtain ⟨⟨nodup, available, unavailableList, stores⟩, _, exhausted, _⟩ := sound
  have nothing : pool.availablePagesSize = 0 := available.count
  have outside : page ∉ unavailable := fun member => (stores.allocated page).mpr member fresh
  have same : ∀ other,
      (Function.update pool.heap page (some none) other).join = (pool.heap other).join := by
    intro other
    by_cases own : other = page
    · simp [own, fresh]
    · simp [own]
  refine ⟨{ pool with
      heap := Function.update pool.heap page (some none)
      availablePages := some page
      availablePagesSize := 1 }, ?_, rfl, rfl, ?_, List.nodup_cons.mpr ⟨outside, nodup⟩, ?_, ?_, ?_,
    stores.owned⟩
  · simp only [allocate, nothing, Nat.lt_irrefl, ↓reduceIte, given, initPage, short, bind,
      Except.bind, pure, Except.pure, Bool.false_eq_true, Bool.not_false]
  · simp [pageAt]
  · intro other
    by_cases own : other = page
    · simp [own]
    · have before := stores.allocated other
      simpa [own] using before
  · apply ring_transport unavailable unavailableList.ring
    intro other _
    simp [nextOf, prevOf, pageAt, same]
  · intro other member
    have stocked := stores.stocked other member
    rw [exhausted other member] at stocked
    apply stocked.kept
    simp [contents, pageAt, same]

end Starved

section Steps

variable {use : Use blockSize} {perPage : Nat}

theorem serve_allocate {build : Build} {mallocs : Mallocs} {answer : Option Block}
    {pool : MemoryPool blockSize}
    (allocated : use.pool.allocate build mallocs = .ok (answer, pool)) :
    serve build use (.allocate mallocs) = .ok (answer, ⟨pool, answer.toList ++ use.held⟩) := by
  simp only [serve, allocated, bind, Except.bind, pure, Except.pure]

theorem allocate_supplied (build : Build) (roomy : 1 < perPage) {pool : MemoryPool blockSize}
    {held : List Block} (good : Good pool perPage held) {mallocs : Mallocs} {page : Nat}
    (given : mallocs.page = some page) (fresh : pool.heap page = none)
    (filled : (mallocs.block && mallocs.availableStack) = true) :
    ∃ block after, pool.allocate build mallocs = .ok (some block, after) ∧ block ∉ held ∧
      Good after perPage (block :: held) := by
  obtain ⟨available, unavailable, idle, sound⟩ := good
  cases available with
  | cons front rest => exact allocate_from_page build mallocs sound
  | nil => exact allocate_from_heap build mallocs roomy sound fresh given filled

theorem allocate_good (build : Build) (roomy : 1 < perPage) {pool : MemoryPool blockSize}
    {held : List Block} (good : Good pool perPage held) (mallocs : Mallocs)
    (fresh : ∀ page, mallocs.page = some page → pool.heap page = none)
    (fed : ¬ (pool.availablePagesSize = 0 ∧ mallocs.page.isSome ∧
      (mallocs.block && mallocs.availableStack) = false)) :
    ∃ answer after, pool.allocate build mallocs = .ok (answer, after) ∧
      (∀ block, answer = some block → block ∉ held) ∧ Good after perPage (answer.toList ++ held) := by
  obtain ⟨available, unavailable, idle, sound⟩ := good
  cases available with
  | cons page rest =>
      obtain ⟨block, after, ran, unheld, goodAfter⟩ := allocate_from_page build mallocs sound
      exact ⟨some block, after, ran, fun other same => Option.some.inj same ▸ unheld, goodAfter⟩
  | nil =>
      rcases given : mallocs.page with _ | page
      · obtain ⟨after, ran, goodAfter⟩ := allocate_refused build mallocs sound given
        exact ⟨none, after, ran, nofun, goodAfter⟩
      · have filled : (mallocs.block && mallocs.availableStack) = true := by
          by_contra short
          exact fed ⟨sound.books.availableList.count, by simp [given], by simpa using short⟩
        obtain ⟨block, after, ran, unheld, goodAfter⟩ :=
          allocate_from_heap build mallocs roomy sound (fresh page given) given filled
        exact ⟨some block, after, ran, fun other same => Option.some.inj same ▸ unheld, goodAfter⟩

theorem serve_good (build : Build) (roomy : 1 < perPage) (good : Good use.pool perPage use.held)
    (call : Call) (proper : Proper use call) (fed : ¬ Starves use call) :
    ∃ answer after, serve build use call = .ok (answer, after) ∧
      Good after.pool perPage after.held := by
  cases call with
  | allocate mallocs =>
      obtain ⟨answer, after, ran, _, goodAfter⟩ :=
        allocate_good build roomy good mallocs proper fed
      exact ⟨answer, _, serve_allocate ran, goodAfter⟩
  | release block =>
      obtain ⟨after, ran, goodAfter⟩ := release_good build roomy good proper
      refine ⟨none, ⟨after, use.held.erase block⟩, ?_, goodAfter⟩
      simp only [serve, ran, bind, Except.bind, pure, Except.pure]
  | clear =>
      obtain ⟨after, ran, goodAfter, _⟩ := clear_good good
      refine ⟨none, ⟨after, []⟩, ?_, goodAfter⟩
      simp only [serve, ran, bind, Except.bind, pure, Except.pure]

theorem serve_starves (build : Build) (good : Good use.pool perPage use.held) (call : Call)
    (proper : Proper use call) (starves : Starves use call) :
    ∃ after page unavailable, serve build use call = .ok (none, after) ∧
      Starved after.pool perPage after.held page unavailable := by
  cases call with
  | allocate mallocs =>
      obtain ⟨available, unavailable, idle, sound⟩ := good
      obtain ⟨nothing, given, short⟩ := starves
      obtain ⟨page, given⟩ := Option.isSome_iff_exists.mp given
      have empty : available = [] := by
        rw [sound.books.availableList.count] at nothing
        exact List.length_eq_zero_iff.mp nothing
      subst empty
      obtain ⟨after, ran, starved⟩ :=
        allocate_starves build mallocs sound (proper page given) given short
      exact ⟨_, page, unavailable, serve_allocate ran, starved⟩
  | release block => exact starves.elim
  | clear => exact starves.elim

theorem serve_starved (build : Build) {page : Nat} {unavailable : List Nat}
    (starved : Starved use.pool perPage use.held page unavailable) (call : Call)
    (proper : Proper use call) : serve build use call = .error (.fault .readPast) := by
  cases call with
  | allocate mallocs =>
      simp only [serve, allocate_starved build mallocs starved, bind, Except.bind]
  | release block => simp only [serve, release_starved build starved proper, bind, Except.bind]
  | clear => simp only [serve, clear_starved starved, bind, Except.bind]

end Steps

section Life

variable {perPage : Nat}

theorem opened_good (size : Nat) :
    Good (opened size : Use blockSize).pool (size / blockSize) (opened size : Use blockSize).held :=
  no_pages_good rfl rfl rfl

theorem life_fault_free (build : Build) (roomy : 1 < perPage) (use : Use blockSize)
    (good : Good use.pool perPage use.held) (sequence : List Call)
    (proper : Throughout (serve build) Proper use sequence) :
    (∃ answers last, calls (serve build) use (sequence ++ [.clear]) = .ok (answers, last)) ↔
      Throughout (serve build) (fun use call => ¬ Starves use call) use sequence := by
  induction sequence generalizing use with
  | nil =>
      obtain ⟨answer, after, served, _⟩ := serve_good build roomy good .clear trivial id
      refine iff_of_true ?_ trivial
      rw [List.nil_append, calls_served served]
      exact ⟨[], after, rfl⟩
  | cons call rest ih =>
      by_cases starves : Starves use call
      · obtain ⟨after, page, unavailable, served, starved⟩ :=
          serve_starves build good call proper.1 starves
        refine iff_of_false ?_ (fun fed => fed.1 starves)
        rw [List.cons_append, calls_served served]
        -- whatever comes next, the destructor at the latest, meets the page
        have later := ((throughout_served served rest).mp proper).2
        cases rest with
        | nil => exact calls_failed (serve_starved build starved .clear trivial) []
        | cons next rest => exact calls_failed (serve_starved build starved next later.1) _
      · obtain ⟨answer, after, served, goodAfter⟩ :=
          serve_good build roomy good call proper.1 starves
        have later := ((throughout_served served rest).mp proper).2
        rw [List.cons_append, calls_served served, throughout_served served,
          ih after goodAfter later]
        exact (and_iff_right starves).symm

/-- Nothing goes wrong in the life of a pool, its destructor included, unless
rakMalloc gives a page and then refuses what belongs into it. -/
theorem life_fault_free_iff (build : Build) (size : Nat) (roomy : 1 < size / blockSize)
    (sequence : List Call)
    (proper : Throughout (serve build) Proper (opened size : Use blockSize) sequence) :
    (∃ answers last, calls (serve build) (opened size : Use blockSize) (sequence ++ [.clear]) =
        .ok (answers, last)) ↔
      Throughout (serve build) (fun use call => ¬ Starves use call) (opened size : Use blockSize)
        sequence :=
  life_fault_free build roomy (opened size) (opened_good size) sequence proper

theorem refused_stack_faults : ¬ ∃ answers last,
    calls (serve ⟨.x64, true⟩) (opened 64 : Use 32) ([.allocate ⟨some 0, true, false⟩] ++ [.clear]) =
      .ok (answers, last) := by
  rw [life_fault_free_iff ⟨.x64, true⟩ 64 (by decide) [.allocate ⟨some 0, true, false⟩]
    ⟨fun _ _ => rfl, fun _ _ _ => trivial⟩]
  exact fun fed => fed.1 ⟨rfl, rfl, rfl⟩

def Known (perPage : Nat) (use : Use blockSize) : Prop :=
  Good use.pool perPage use.held ∨
    ∃ page unavailable, Starved use.pool perPage use.held page unavailable

theorem reached_known (build : Build) (size : Nat) (roomy : 1 < size / blockSize)
    (sequence : List Call) (answers : List (Option Block)) (last : Use blockSize)
    (proper : Throughout (serve build) Proper (opened size : Use blockSize) sequence)
    (ran : calls (serve build) (opened size : Use blockSize) sequence = .ok (answers, last)) :
    Known (size / blockSize) last := by
  refine calls_invariant (Known (size / blockSize)) ?_ (opened size) last
    (Or.inl (opened_good size)) sequence answers proper ran
  rintro use call answer after (good | ⟨page, unavailable, starved⟩) now served
  · by_cases starves : Starves use call
    · obtain ⟨other, page, unavailable, servedAlso, starved⟩ :=
        serve_starves build good call now starves
      rw [served] at servedAlso
      cases servedAlso
      exact Or.inr ⟨page, unavailable, starved⟩
    · obtain ⟨_, other, servedAlso, goodAfter⟩ := serve_good build roomy good call now starves
      rw [served] at servedAlso
      cases servedAlso
      exact Or.inl goodAfter
  · rw [serve_starved build starved call now] at served
    contradiction

theorem known_stocked {use : Use blockSize} (known : Known perPage use) {block : Block}
    (member : block ∈ use.held) :
    ∃ idle, Stocked use.pool perPage use.held block.parentPage idle := by
  rcases known with ⟨available, unavailable, idle, sound⟩ | ⟨page, unavailable, starved⟩
  · have owned := sound.books.stores.owned block member
    exact ⟨idle block.parentPage, sound.books.stores.stocked _ owned⟩
  · exact ⟨[], starved.stocked _ (starved.owned block member)⟩

theorem known_nodup {use : Use blockSize} (known : Known perPage use) : use.held.Nodup := by
  refine List.nodup_iff_count_le_one.mpr ?_
  intro block
  by_cases member : block ∈ use.held
  · obtain ⟨idle, stocked⟩ := known_stocked known member
    have once := List.nodup_iff_count_le_one.mp (List.nodup_append.mp stocked.nodup).2.1 block
    rwa [heldOf, List.count_filter (by simp)] at once
  · rw [List.count_eq_zero_of_not_mem member]
    omega

/-- No two blocks that the caller has are one, and each lies in a page that is
there, as far in as the page has blocks, and is not to be given away. -/
theorem held_blocks_apart (build : Build) (size : Nat) (roomy : 1 < size / blockSize)
    (sequence : List Call) (answers : List (Option Block)) (last : Use blockSize)
    (proper : Throughout (serve build) Proper (opened size : Use blockSize) sequence)
    (ran : calls (serve build) (opened size : Use blockSize) sequence = .ok (answers, last)) :
    last.held.Nodup ∧ ∀ block ∈ last.held, block.index < size / blockSize ∧
      ∃ page, last.pool.pageAt block.parentPage = some page ∧
        block ∉ page.availableStack.take page.availableStackSize := by
  have known := reached_known build size roomy sequence answers last proper ran
  refine ⟨known_nodup known, ?_⟩
  intro block member
  obtain ⟨idle, stocked⟩ := known_stocked known member
  have mine : block ∈ heldOf last.held block.parentPage := (mem_held_of _ block).mpr ⟨member, rfl⟩
  obtain ⟨page, rest, here, _, stack, count, _⟩ := stocked.loaded
  refine ⟨?_, page, here, ?_⟩
  · have inside := stocked.all.subset (List.mem_append_right idle mine)
    exact ((mem_blocks_of _ _ block).mp inside).2
  · rw [stack, count, List.take_left']
    · intro listed
      exact (List.nodup_append.mp stocked.nodup).2.2 block listed block mine rfl
    · rfl

theorem both_blocks_apart : ∃ answers last,
    calls (serve ⟨.x64, true⟩) (opened 64 : Use 32)
      [.allocate ⟨some 0, true, true⟩, .allocate ⟨none, true, true⟩] = .ok (answers, last) ∧
    last.held.Nodup ∧ ∀ block ∈ last.held, block.index < 64 / 32 ∧
      ∃ page, last.pool.pageAt block.parentPage = some page ∧
        block ∉ page.availableStack.take page.availableStackSize :=
  ⟨_, _, rfl, held_blocks_apart ⟨.x64, true⟩ 64 (by decide)
    [.allocate ⟨some 0, true, true⟩, .allocate ⟨none, true, true⟩] _ _
    ⟨fun _ _ => rfl, fun _ _ _ => ⟨nofun, fun _ _ _ => trivial⟩⟩ rfl⟩

theorem lenders_bounded {pool : MemoryPool blockSize} {held : List Block} {pages : List Nat}
    {idle : Nat → List Block} (nodup : pages.Nodup)
    (stocked : ∀ page ∈ pages, Stocked pool perPage held page (idle page))
    (lent : ∀ page ∈ pages, (idle page).length ≠ perPage) : pages.length ≤ held.length := by
  have covered : pages ⊆ held.map Block.parentPage := by
    intro page member
    have count := (stocked page member).length
    have positive : 0 < (heldOf held page).length := by
      have short := lent page member
      omega
    obtain ⟨block, mine⟩ := List.exists_mem_of_length_pos positive
    obtain ⟨inside, own⟩ := (mem_held_of page block).mp mine
    exact List.mem_map.mpr ⟨block, inside, own⟩
  have bound := (List.subperm_of_subset nodup covered).length_le
  rwa [List.length_map] at bound

theorem good_bounded {pool : MemoryPool blockSize} {held : List Block} (roomy : 1 < perPage)
    (good : Good pool perPage held) :
    ∃ pages : List Nat, pages.Nodup ∧ (∀ page, pool.heap page ≠ none ↔ page ∈ pages) ∧
      pages.length < held.length + DS_MEMORY_POOL_MAX_FREE_PAGES := by
  obtain ⟨available, unavailable, idle, books, _, exhausted, spare⟩ := good
  refine ⟨available ++ unavailable, books.nodup, books.stores.allocated, ?_⟩
  have lenders : ((available ++ unavailable).filter fun page =>
      !whole perPage idle page).length ≤ held.length := by
    apply lenders_bounded (books.nodup.filter _)
    · intro page member
      exact books.stores.stocked page (List.mem_filter.mp member).1
    · intro page member
      simpa [whole] using (List.mem_filter.mp member).2
  have none : unavailable.countP (whole perPage idle) = 0 := by
    refine List.countP_eq_zero.mpr ?_
    intro page member
    simp [whole, exhausted page member]
    omega
  have split := (available ++ unavailable).length_eq_length_filter_add (whole perPage idle)
  rw [← List.countP_eq_length_filter, List.countP_append, none] at split
  omega

/-- A pool has at most three pages more than its caller has blocks. -/
theorem pages_bounded (build : Build) (size : Nat) (roomy : 1 < size / blockSize)
    (sequence : List Call) (answers : List (Option Block)) (last : Use blockSize)
    (proper : Throughout (serve build) Proper (opened size : Use blockSize) sequence)
    (ran : calls (serve build) (opened size : Use blockSize) sequence = .ok (answers, last)) :
    ∃ pages : List Nat, pages.Nodup ∧ (∀ page, last.pool.heap page ≠ none ↔ page ∈ pages) ∧
      pages.length < last.held.length + DS_MEMORY_POOL_MAX_FREE_PAGES := by
  rcases reached_known build size roomy sequence answers last proper ran with
    good | ⟨page, unavailable, starved⟩
  · exact good_bounded roomy good
  · refine ⟨page :: unavailable, starved.nodup, starved.allocated, ?_⟩
    have lenders := lenders_bounded (List.nodup_cons.mp starved.nodup).2 starved.stocked
      (fun _ _ => by simp; omega)
    simp only [List.length_cons, DS_MEMORY_POOL_MAX_FREE_PAGES]
    omega

theorem released_page_kept : ∃ answers last,
    calls (serve ⟨.x64, true⟩) (opened 64 : Use 32)
      [.allocate ⟨some 0, true, true⟩, .release ⟨0, 1⟩] = .ok (answers, last) ∧
    ∃ pages : List Nat, pages.Nodup ∧ (∀ page, last.pool.heap page ≠ none ↔ page ∈ pages) ∧
      pages.length < last.held.length + DS_MEMORY_POOL_MAX_FREE_PAGES := by
  refine ⟨_, _, rfl, pages_bounded ⟨.x64, true⟩ 64 (by decide)
    [.allocate ⟨some 0, true, true⟩, .release ⟨0, 1⟩] _ _ ⟨fun _ _ => rfl, ?_⟩ rfl⟩
  intro answer after served
  cases served
  exact ⟨List.mem_cons_self, fun _ _ _ => trivial⟩

theorem stocked_all_held {pool : MemoryPool blockSize} {held : List Block} {page : Nat}
    {idle : List Block} (stocked : Stocked pool perPage held page idle) :
    idle = [] ↔ ∀ index, index < perPage → Block.mk page index ∈ held := by
  constructor
  · rintro rfl index inside
    have listed := stocked.all.symm.subset ((mem_blocks_of page perPage ⟨page, index⟩).mpr
      ⟨rfl, inside⟩)
    exact ((mem_held_of page _).mp listed).1
  · intro lent
    refine List.eq_nil_iff_forall_not_mem.mpr ?_
    rintro ⟨parent, index⟩ listed
    obtain ⟨rfl, inside⟩ := (mem_blocks_of page perPage _).mp
      (stocked.all.subset (List.mem_append_left _ listed))
    have mine := (mem_held_of parent ⟨parent, index⟩).mpr ⟨lent index inside, rfl⟩
    exact (List.nodup_append.mp stocked.nodup).2.2 _ listed _ mine rfl

/-- `Allocate` returns 0 exactly when the caller has every block of every page
and no new page can be had. -/
theorem allocation_refused_iff (build : Build) (size : Nat) (roomy : 1 < size / blockSize)
    (sequence : List Call) (answers : List (Option Block)) (last after : Use blockSize)
    (proper : Throughout (serve build) Proper (opened size : Use blockSize) sequence)
    (ran : calls (serve build) (opened size : Use blockSize) sequence = .ok (answers, last))
    (mallocs : Mallocs) (fresh : Proper last (.allocate mallocs)) (answer : Option Block)
    (served : serve build last (.allocate mallocs) = .ok (answer, after)) :
    answer = none ↔
      (∀ page, last.pool.heap page ≠ none → ∀ index, index < size / blockSize →
        Block.mk page index ∈ last.held) ∧
      (mallocs.page = none ∨ (mallocs.block && mallocs.availableStack) = false) := by
  rcases reached_known build size roomy sequence answers last proper ran with
    ⟨available, unavailable, idle, sound⟩ | ⟨page, unavailable, starved⟩
  · have stocked := sound.books.stores.stocked
    cases available with
    | cons page rest =>
        obtain ⟨block, pool, allocated, _⟩ := allocate_from_page build mallocs sound
        cases served.symm.trans (serve_allocate allocated)
        refine iff_of_false (by simp) ?_
        rintro ⟨lent, _⟩
        have there := (sound.books.stores.allocated page).mpr (by simp)
        exact sound.ready page (by simp)
          ((stocked_all_held (stocked page (by simp))).mpr (lent page there))
    | nil =>
        have lent : ∀ page, last.pool.heap page ≠ none → ∀ index, index < size / blockSize →
            Block.mk page index ∈ last.held := by
          intro page there
          have member := (sound.books.stores.allocated page).mp there
          exact (stocked_all_held (stocked page member)).mp (sound.exhausted page member)
        rw [and_iff_right lent]
        rcases given : mallocs.page with _ | page
        · obtain ⟨pool, allocated, _⟩ := allocate_refused build mallocs sound given
          cases served.symm.trans (serve_allocate allocated)
          simp
        · have new := fresh page given
          cases filled : mallocs.block && mallocs.availableStack with
          | true =>
              obtain ⟨block, pool, allocated, _⟩ :=
                allocate_from_heap build mallocs roomy sound new given filled
              cases served.symm.trans (serve_allocate allocated)
              simp
          | false =>
              obtain ⟨pool, allocated, _⟩ := allocate_starves build mallocs sound new given filled
              cases served.symm.trans (serve_allocate allocated)
              simp
  · rw [serve_starved build starved _ fresh] at served
    contradiction

theorem third_block_refused : ∃ answers last answer after,
    calls (serve ⟨.x64, true⟩) (opened 64 : Use 32)
      [.allocate ⟨some 0, true, true⟩, .allocate ⟨none, true, true⟩] = .ok (answers, last) ∧
    serve ⟨.x64, true⟩ last (.allocate ⟨none, true, true⟩) = .ok (answer, after) ∧
    (answer = none ↔
      (∀ page, last.pool.heap page ≠ none → ∀ index, index < 64 / 32 →
        Block.mk page index ∈ last.held) ∧
      ((none : Option Nat) = none ∨ (true && true) = false)) :=
  ⟨_, _, _, _, rfl, rfl, allocation_refused_iff ⟨.x64, true⟩ 64 (by decide)
    [.allocate ⟨some 0, true, true⟩, .allocate ⟨none, true, true⟩] _ _ _
    ⟨fun _ _ => rfl, fun _ _ _ => ⟨nofun, fun _ _ _ => trivial⟩⟩ rfl ⟨none, true, true⟩ nofun _ rfl⟩

end Life

end DataStructures.MemoryPool
