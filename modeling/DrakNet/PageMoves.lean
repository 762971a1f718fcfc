import DrakNet.PageStacks

/-!
The pages of a pool on their way: from the head of one list to the tail of the
other and back, out of the pool once all their blocks are there again, and into
it when there is nothing left to give away.
-/

namespace DataStructures.MemoryPool

open CString DrakNet Rings

variable {blockSize : Nat} {pool after : MemoryPool blockSize} {perPage page : Nat}
  {held : List Block} {available unavailable : List Nat} {idle : Nat → List Block}

theorem assert_room_ok (build : Build) {head : Nat} {stack : List Block × Nat}
    (pages : pool.availablePages = some head) (contents : pool.contents head = some stack)
    (filled : 0 < stack.2) : pool.assertRoom build = .ok () := by
  obtain ⟨found, here, rfl⟩ := Option.map_eq_some_iff.mp contents
  have loaded := (load_ok_iff pool head found).mpr here
  unfold assertRoom
  split
  · simp only [pages, follow, loaded, bind, Except.bind]
    exact Queue.check_true build (by simpa using filled)
  · rfl

theorem Stores.assert_room (build : Build) {pages : List Nat}
    (stores : Stores pool perPage held pages idle) (head : Nat)
    (front : pool.availablePages = some head) (member : head ∈ pages) (filled : idle head ≠ []) :
    pool.assertRoom build = .ok () := by
  obtain ⟨rest, contents, _⟩ := (stores.stocked head member).stack
  exact assert_room_ok build front contents (List.length_pos_of_ne_nil filled)

theorem retire_books (build : Build)
    (books : Books pool perPage held (page :: available) unavailable idle)
    (ready : ∀ other ∈ available, idle other ≠ []) :
    ∃ after, pool.retire build page = .ok after ∧
      Books after perPage held available (unavailable ++ [page]) idle := by
  obtain ⟨nodup, ⟨_, count, ring⟩, ⟨head, size, apart⟩, stores⟩ := books
  have following := ring_next page available ring
  obtain ⟨found, here, isNext⟩ := page_of_next pool page following
  have loaded := (load_ok_iff pool page found).mpr here
  let shrunk : MemoryPool blockSize :=
    { pool with
      availablePagesSize := pool.availablePagesSize - 1
      availablePages := some (available.headD page) }
  have asserted : shrunk.availablePagesSize ≠ 0 → shrunk.assertRoom build = .ok () := by
    intro more
    cases available with
    | nil => simp [shrunk, count] at more
    | cons second rest =>
        have shrunkStores : Stores shrunk perPage held (page :: second :: rest ++ unavailable) idle :=
          stores.moved rfl (fun _ => Iff.rfl) rfl (List.Perm.refl _)
        exact shrunkStores.assert_room build second rfl (by simp) (ready second (by simp))
  have shrunkRing : Ring shrunk.nextOf shrunk.prevOf (page :: available) := ring
  obtain ⟨middle, unlinked, kept, ringRest, ringApart, _⟩ := unlink_rings nodup shrunkRing apart
  have turned : (page :: unavailable ++ available).Nodup := by
    exact (List.perm_append_comm.cons page).nodup_iff.mp nodup
  have present : (middle.pageAt page).isSome := by
    rw [kept.present]
    exact ring_present ring List.mem_cons_self
  obtain ⟨newHead, last, appended, keptLast, pageList, ringLast⟩ :=
    append_rings turned ⟨head, size, ringApart⟩ ringRest present
  refine ⟨{ last with
      unavailablePages := newHead
      unavailablePagesSize := last.unavailablePagesSize + 1 }, ?_, ?_⟩
  · rw [← kept.unavailablePages, ← kept.unavailablePagesSize] at appended
    simp only [shrunk] at asserted unlinked
    simp only [retire, loaded, isNext, bind, Except.bind]
    split
    · next more =>
        simp only [asserted more, unlinked, appended]
        rfl
    · simp only [unlinked, appended]
      rfl
  · have all := kept.trans keptLast
    have moved : (page :: available ++ unavailable).Perm (available ++ (unavailable ++ [page])) := by
      rw [← List.append_assoc]
      exact (List.perm_append_singleton page (available ++ unavailable)).symm
    exact
      { nodup := moved.nodup_iff.mp nodup
        availableList :=
          { head := by
              intro some
              rw [all.availablePages]
              cases available with
              | nil => contradiction
              | cons second rest => rfl
            count := by
              rw [all.availablePagesSize]
              simp [shrunk, count]
            ring := ringLast }
        unavailableList :=
          { head := pageList.head
            count := by
              rw [all.unavailablePagesSize]
              exact pageList.count
            ring := pageList.ring }
        stores := stores.moved all.contents all.allocated all.memoryPoolPageSize moved }

theorem head_without {front behind : List Nat} {pages : Option Nat} {next : Nat}
    (nodup : (front ++ page :: behind).Nodup)
    (head : pages = (front ++ page :: behind).head?)
    (following : next = (behind ++ front).headD page) (others : front ++ behind ≠ []) :
    (if pages = some page then some next else pages) = (front ++ behind).head? := by
  cases front with
  | nil =>
      cases behind with
      | nil => contradiction
      | cons second rest => simp [head, following]
  | cons first rest =>
      have apart : first ≠ page := by
        rintro rfl
        simp at nodup
      simp [head, apart]

theorem revive_books {front behind : List Nat}
    (books : Books pool perPage held available (front ++ page :: behind) idle) :
    ∃ after, pool.revive page = .ok after ∧
      Books after perPage held (available ++ [page]) (front ++ behind) idle := by
  obtain ⟨nodup, ⟨head, size, apart⟩, ⟨headFrom, count, ring⟩, stores⟩ := books
  have moved : (available ++ (front ++ page :: behind)).Perm
      (available ++ [page] ++ (front ++ behind)) := by
    rw [List.append_assoc, List.singleton_append]
    exact List.perm_middle.append_left available
  have spread : (page :: available ++ (behind ++ front)).Nodup := by
    refine (List.Perm.nodup_iff ?_).mp (moved.nodup_iff.mp nodup)
    exact (List.perm_append_singleton page available).append List.perm_append_comm
  have turned : (page :: (behind ++ front) ++ available).Nodup :=
    (List.perm_append_comm.cons page).nodup_iff.mp spread
  rw [ring_front] at ring
  let shrunk : MemoryPool blockSize :=
    { pool with unavailablePagesSize := pool.unavailablePagesSize - 1 }
  have shrunkRing : Ring shrunk.nextOf shrunk.prevOf (page :: (behind ++ front)) := ring
  obtain ⟨middle, unlinked, kept, ringRest, ringApart, same⟩ := unlink_rings turned shrunkRing apart
  have following : middle.nextOf page = some ((behind ++ front).headD page) :=
    same.trans (ring_next page (behind ++ front) ring)
  obtain ⟨found, here, isNext⟩ := page_of_next middle page following
  have loaded := (load_ok_iff middle page found).mpr here
  have left : middle.unavailablePagesSize = (front ++ behind).length := by
    rw [kept.unavailablePagesSize]
    simp [shrunk, count]
  let headed : MemoryPool blockSize :=
    { middle with
      unavailablePages :=
        if 0 < middle.unavailablePagesSize ∧ middle.unavailablePages = some page
          then some found.next else middle.unavailablePages }
  have listed : PageList headed headed.availablePages headed.availablePagesSize available :=
    { head := by
        intro some
        exact kept.availablePages.trans (head some)
      count := kept.availablePagesSize.trans size
      ring := ringApart }
  obtain ⟨newHead, last, appended, keptLast, pageList, ringLast⟩ :=
    append_rings spread listed ringRest (Option.isSome_of_eq_some here)
  refine ⟨{ last with
      availablePages := newHead
      availablePagesSize := last.availablePagesSize + 1 }, ?_, ?_⟩
  · simp only [shrunk] at unlinked
    simp only [headed] at appended
    simp only [revive, unlinked, loaded, appended, bind, Except.bind]
    rfl
  · exact
      { nodup := moved.nodup_iff.mp nodup
        availableList :=
          { head := pageList.head
            count := by
              rw [keptLast.availablePagesSize]
              exact pageList.count
            ring := pageList.ring }
        unavailableList :=
          { head := by
              intro some
              have positive := List.length_pos_of_ne_nil some
              rw [keptLast.unavailablePages]
              simp only [headed, left, positive, isNext, true_and]
              rw [kept.unavailablePages]
              exact head_without (List.nodup_append.mp nodup).2.1 (headFrom (by simp)) rfl some
            count := by
              rw [keptLast.unavailablePagesSize]
              exact left
            ring := (ring_rotated List.isRotated_append).mp ringLast }
        stores := stores.moved (keptLast.contents.trans kept.contents)
          (fun address => (keptLast.allocated address).trans (kept.allocated address))
          (keptLast.memoryPoolPageSize.trans kept.memoryPoolPageSize) moved }

section Pages

theorem next_of_free {other : Nat} (apart : other ≠ page) :
    (pool.free page).nextOf other = pool.nextOf other ∧
      (pool.free page).prevOf other = pool.prevOf other ∧
      (pool.free page).contents other = pool.contents other := by
  simp [nextOf, prevOf, contents, pageAt, free, apart]

theorem ring_free {members : List Nat} (ring : Ring pool.nextOf pool.prevOf members)
    (outside : page ∉ members) : Ring (pool.free page).nextOf (pool.free page).prevOf members := by
  apply ring_transport members ring
  intro member inside
  have apart : member ≠ page := fun same => outside (same ▸ inside)
  exact ⟨(next_of_free apart).1, (next_of_free apart).2.1⟩

theorem Stores.freed {pages : List Nat} (stores : Stores pool perPage held (page :: pages) idle)
    (outside : page ∉ pages) (whole : (idle page).length = perPage) :
    Stores (pool.free page) perPage held pages idle where
  size := stores.size
  allocated := by
    intro address
    by_cases own : address = page
    · subst address
      simp [free, outside]
    · have before := stores.allocated address
      simp only [List.mem_cons, own, false_or] at before
      simpa [free, own] using before
  stocked := by
    intro address member
    have apart : address ≠ page := fun same => outside (same ▸ member)
    exact (stores.stocked address (List.mem_cons_of_mem _ member)).kept (next_of_free apart).2.2
  owned := by
    intro block member
    rcases List.mem_cons.mp (stores.owned block member) with own | other
    · have count := (stores.stocked page List.mem_cons_self).length
      have lent := List.length_pos_of_mem ((mem_held_of page block).mpr ⟨member, own⟩)
      omega
    · exact other

theorem discard_books (build : Build) {front behind : List Nat}
    (books : Books pool perPage held (front ++ page :: behind) unavailable idle)
    (whole : (idle page).length = perPage) (others : front ++ behind ≠ [])
    (ready : ∀ other ∈ front ++ behind, idle other ≠ []) :
    ∃ after, pool.discard build page = .ok after ∧
      Books after perPage held (front ++ behind) unavailable idle := by
  obtain ⟨nodup, ⟨head, size, ring⟩, ⟨headFrom, count, apart⟩, stores⟩ := books
  have moved : (front ++ page :: behind ++ unavailable).Perm
      (page :: (front ++ behind ++ unavailable)) := List.perm_middle.append_right unavailable
  have spread := moved.nodup_iff.mp nodup
  have turned : (page :: (behind ++ front) ++ unavailable).Nodup :=
    ((List.perm_append_comm.append_right unavailable).cons page).nodup_iff.mp spread
  have following := ring_next page (behind ++ front) ((ring_front front behind page).mp ring)
  obtain ⟨found, here, isNext⟩ := page_of_next pool page following
  have loaded := (load_ok_iff pool page found).mpr here
  let headed : MemoryPool blockSize :=
    { pool with
      availablePages := if pool.availablePages = some page then some found.next
        else pool.availablePages }
  have headAt : headed.availablePages = (front ++ behind).head? :=
    head_without (List.nodup_append.mp nodup).1 (head (by simp)) isNext others
  obtain ⟨next, isHead⟩ := Option.isSome_iff_exists.mp (List.isSome_head?.mpr others)
  have headedStores : Stores headed perPage held (page :: (front ++ behind ++ unavailable)) idle :=
    stores.moved rfl (fun _ => Iff.rfl) rfl moved
  have member := List.mem_of_mem_head? isHead
  have asserted : headed.assertRoom build = .ok () := headedStores.assert_room build next
    (headAt.trans isHead) (List.mem_cons_of_mem _ (List.mem_append_left _ member))
    (ready next member)
  have headedRing : Ring headed.nextOf headed.prevOf (page :: (behind ++ front)) :=
    (ring_front front behind page).mp ring
  obtain ⟨middle, unlinked, kept, ringRest, ringApart⟩ := unlink_back_rings turned headedRing apart
  obtain ⟨outside, distinct⟩ := List.nodup_cons.mp spread
  let shrunk : MemoryPool blockSize :=
    { middle with availablePagesSize := middle.availablePagesSize - 1 }
  have shrunkRing : Ring shrunk.nextOf shrunk.prevOf (front ++ behind) :=
    (ring_rotated List.isRotated_append).mp ringRest
  have shrunkApart : Ring shrunk.nextOf shrunk.prevOf unavailable := ringApart
  have shrunkStores : Stores shrunk perPage held (page :: (front ++ behind ++ unavailable)) idle :=
    headedStores.moved kept.contents kept.allocated kept.memoryPoolPageSize (List.Perm.refl _)
  refine ⟨shrunk.free page, ?_, ?_⟩
  · simp only [discard, loaded, bind, Except.bind]
    by_cases own : pool.availablePages = some page
    · simp only [headed, own, ↓reduceIte] at asserted unlinked
      simp only [own, ↓reduceIte, asserted, pure, Except.pure, unlinked]
      rfl
    · simp only [headed, own, ↓reduceIte] at unlinked
      simp only [own, ↓reduceIte, pure, Except.pure, unlinked]
      rfl
  · exact
      { nodup := distinct
        availableList :=
          { head := fun _ => kept.availablePages.trans headAt
            count := by
              change middle.availablePagesSize - 1 = _
              rw [kept.availablePagesSize]
              simp [headed, size]
            ring := ring_free shrunkRing (fun inside => outside (List.mem_append_left _ inside)) }
        unavailableList :=
          { head := fun some => kept.unavailablePages.trans (headFrom some)
            count := kept.unavailablePagesSize.trans count
            ring := ring_free shrunkApart (fun inside => outside (List.mem_append_right _ inside)) }
        stores := shrunkStores.freed outside whole }

theorem fresh_books (books : Books pool perPage held [] unavailable idle)
    (fresh : pool.heap page = none) :
    Books (store ({ pool with
        heap := Function.update pool.heap page (some none)
        availablePages := some page
        availablePagesSize := 1 } : MemoryPool blockSize) page
      { availableStack := blocksOf page perPage
        availableStackSize := perPage
        next := page
        prev := page }) perPage held [page] unavailable
      (Function.update idle page (blocksOf page perPage)) := by
  obtain ⟨nodup, _, ⟨head, count, ring⟩, stores⟩ := books
  have outside : page ∉ unavailable := fun member => (stores.allocated page).mpr member fresh
  have unowned : heldOf held page = [] := by
    refine List.filter_eq_nil_iff.mpr ?_
    intro block member own
    have inside : block.parentPage ∈ unavailable := stores.owned block member
    exact outside (of_decide_eq_true own ▸ inside)
  have other : ∀ address ∈ unavailable, address ≠ page :=
    fun address member same => outside (same ▸ member)
  constructor
  · exact List.nodup_cons.mpr ⟨outside, nodup⟩
  · refine ⟨fun _ => rfl, rfl, ?_⟩
    apply ring_single
    · rw [next_of_store, Function.update_self]
    · rw [prev_of_store, Function.update_self]
  · refine ⟨head, count, ?_⟩
    apply ring_transport unavailable ring
    intro address member
    have apart := other address member
    simp [nextOf, prevOf, pageAt, store, apart]
  · constructor
    · exact stores.size
    · intro address
      by_cases own : address = page
      · simp [store, own]
      · have before := stores.allocated address
        simpa [store, own] using before
    · intro address member
      by_cases own : address = page
      · subst address
        rw [Function.update_self]
        constructor
        · refine ⟨[], ?_, ?_⟩
          · rw [contents_store, Function.update_self, blocks_of_length, List.append_nil]
          · rw [List.append_nil, blocks_of_length]
        · rw [unowned, List.append_nil]
      · rw [Function.update_of_ne own]
        have inside : address ∈ unavailable := by simpa [own] using member
        apply (stores.stocked address inside).kept
        simp [contents, pageAt, store, own]
    · intro block member
      exact List.mem_cons_of_mem page (stores.owned block member)

end Pages

section Clearing

def without (pool : MemoryPool blockSize) (pages : List Nat) : MemoryPool blockSize :=
  { pool with heap := fun address => if address ∈ pages then none else pool.heap address }

theorem without_cons (page : Nat) (pages : List Nat) :
    pool.without (page :: pages) = (pool.free page).without pages := by
  simp only [without, free]
  congr
  funext address
  by_cases own : address = page <;> simp [own]

theorem without_nil : pool.without [] = pool := by
  simp [without]

/-- The loop goes on around the ring, and frees each page after it has read
where to go on. -/
theorem clear_from_frees (first current : Nat) (rest : List Nat) (fuel : Nat)
    (enough : rest.length < fuel) (nodup : (current :: rest).Nodup) (elsewhere : first ∉ rest)
    (chain : (current :: rest).IsChain (Linked pool.nextOf pool.prevOf))
    (closing : pool.nextOf (rest.getLastD current) = some first) :
    clearFrom first fuel current pool = .ok (pool.without (current :: rest)) := by
  induction rest generalizing current pool fuel with
  | nil =>
      obtain ⟨fuel, rfl⟩ := Nat.exists_eq_succ_of_ne_zero (Nat.ne_zero_of_lt enough)
      obtain ⟨found, here, isNext⟩ := page_of_next pool current closing
      have loaded := (load_ok_iff pool current found).mpr here
      simp only [clearFrom, loaded, isNext, ↓reduceIte, bind, Except.bind, pure, Except.pure,
        without_cons, without_nil]
  | cons second rest ih =>
      obtain ⟨fuel, rfl⟩ := Nat.exists_eq_succ_of_ne_zero (Nat.ne_zero_of_lt enough)
      obtain ⟨⟨following, _⟩, later⟩ := List.isChain_cons_cons.mp chain
      obtain ⟨found, here, isNext⟩ := page_of_next pool current following
      have loaded := (load_ok_iff pool current found).mpr here
      obtain ⟨fresh, distinct⟩ := List.nodup_cons.mp nodup
      have more : second ≠ first := fun same => elsewhere (same ▸ List.mem_cons_self)
      have others : ∀ member ∈ second :: rest, member ≠ current :=
        fun member inside same => fresh (same ▸ inside)
      have laterFreed : (second :: rest).IsChain
          (Linked (pool.free current).nextOf (pool.free current).prevOf) := by
        apply chain_transport second rest distinct later
        · intro member inside _
          exact (next_of_free (others member inside)).1
        · intro member inside
          exact (next_of_free (others member (List.mem_cons_of_mem _ inside))).2.1
      rw [List.getLastD_cons] at closing
      have closingFreed : (pool.free current).nextOf (rest.getLastD second) = some first :=
        (next_of_free (others _ (last_mem second rest))).1.trans closing
      have ran := ih second fuel (by simpa using enough) distinct
        (fun inside => elsewhere (List.mem_cons_of_mem _ inside)) laterFreed closingFreed
      simp only [clearFrom, loaded, isNext, more, ↓reduceIte, bind, Except.bind, ran]
      rw [without_cons current]

theorem clear_list_frees {pages : Option Nat} {size : Nat} {members : List Nat}
    (nodup : members.Nodup) (pageList : PageList pool pages size members) :
    pool.clearList size pages = .ok (pool.without members) := by
  obtain ⟨head, rfl, ring⟩ := pageList
  cases members with
  | nil =>
      rw [without_nil]
      rfl
  | cons first rest =>
      obtain ⟨chain, closing, _⟩ := (ring_cons first rest).mp ring
      have isHead := head (by simp)
      have ran := clear_from_frees first first rest (rest.length + 1) (by omega) nodup
        (List.nodup_cons.mp nodup).1 chain closing
      simp only [clearList, List.length_cons, Nat.zero_lt_succ, ↓reduceIte, isHead, List.head?_cons,
        follow, bind, Except.bind]
      exact ran

theorem clear_empties (books : Books pool perPage held available unavailable idle) :
    pool.clear = .ok { pool with
      heap := fun _ => none
      availablePagesSize := 0
      unavailablePagesSize := 0 } := by
  obtain ⟨nodup, availableList, unavailableList, stores⟩ := books
  obtain ⟨distinct, others, disjoint⟩ := List.nodup_append.mp nodup
  have ran := clear_list_frees distinct availableList
  have still : PageList (pool.without available) pool.unavailablePages pool.unavailablePagesSize
      unavailable := by
    refine ⟨unavailableList.head, unavailableList.count, ?_⟩
    apply ring_transport unavailable unavailableList.ring
    intro member inside
    have apart : member ∉ available := fun here => disjoint member here member inside rfl
    simp [without, nextOf, prevOf, pageAt, apart]
  have ranOn : (pool.without available).clearList (pool.without available).unavailablePagesSize
      (pool.without available).unavailablePages =
      .ok ((pool.without available).without unavailable) := clear_list_frees others still
  have nothing : ((pool.without available).without unavailable).heap = fun _ => none := by
    funext address
    have allocated := stores.allocated address
    by_cases first : address ∈ available
    · simp [without, first]
    · by_cases second : address ∈ unavailable
      · simp [without, second]
      · simpa [without, first, second] using allocated
  simp only [clear, ran, ranOn, bind, Except.bind, pure, Except.pure, nothing]
  rfl

end Clearing

end DataStructures.MemoryPool
