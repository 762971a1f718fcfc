import DrakNet.AllocatingQueue

/-!
Structures on their way through a `ThreadsafeAllocatingQueue`, whatever order
the threads call it in. Who allocated a block fills it and pushes it; who
popped it reads it and gives it back. The blocks in hand, the values that were
pushed and those that were found in popped blocks are written down beside the
queue. The page size is set once, and rakMalloc refuses nothing.
-/

namespace DataStructures.ThreadsafeAllocatingQueue

open DrakNet MemoryPool

variable {blockSize : Nat} {structureType : Type}

structure Exchange (blockSize : Nat) (structureType : Type) where
  shared : ThreadsafeAllocatingQueue blockSize structureType
  -- allocated and not pushed yet
  drafts : List Block
  -- popped and not given back yet, with what was in there
  taken : List Block
  found : Block → structureType
  sent : List structureType
  got : List structureType

inductive Call (structureType : Type) where
  | allocate (mallocs : Mallocs)
  | write (s : Block) (value : structureType)
  | push (s : Block)
  | pop
  | popInaccurate (looksEmpty : Bool)
  | deallocate (s : Block)

def Exchange.popped (exchange : Exchange blockSize structureType) (s : Option Block)
    (shared : ThreadsafeAllocatingQueue blockSize structureType) :
    Except Failure (Exchange blockSize structureType) := do
  match s with
  | none => return { exchange with shared := shared }
  | some s =>
      let value ← shared.read s
      return { exchange with
        shared := shared
        taken := s :: exchange.taken
        found := Function.update exchange.found s value
        got := exchange.got ++ [value] }

def serve [Inhabited structureType] (build : Build) (exchange : Exchange blockSize structureType) :
    Call structureType → Except Failure (Exchange blockSize structureType)
  | .allocate mallocs => do
      let (s, shared) ← exchange.shared.allocate build mallocs
      return { exchange with shared := shared, drafts := s :: exchange.drafts }
  | .write s value => do
      let shared ← exchange.shared.write s value
      return { exchange with shared := shared }
  | .push s => do
      let value ← exchange.shared.read s
      let shared ← exchange.shared.push s
      return { exchange with
        shared := shared
        drafts := exchange.drafts.erase s
        sent := exchange.sent ++ [value] }
  | .pop => do
      let (s, shared) ← exchange.shared.pop build
      exchange.popped s shared
  | .popInaccurate looksEmpty => do
      let (s, shared) ← exchange.shared.popInaccurate build looksEmpty
      exchange.popped s shared
  | .deallocate s => do
      let shared ← exchange.shared.deallocate build s
      return { exchange with
        shared := shared
        drafts := exchange.drafts.erase s
        taken := exchange.taken.erase s }

def Allowed (exchange : Exchange blockSize structureType) : Call structureType → Prop
  -- rakMalloc gives a page that is not in use, and all that belongs into it
  | .allocate mallocs => (mallocs.block && mallocs.availableStack) = true ∧
      ∃ page, mallocs.page = some page ∧ exchange.shared.memoryPool.heap page = none
  | .write s _ => s ∈ exchange.drafts
  | .push s => s ∈ exchange.drafts
  | .pop => True
  | .popInaccurate _ => True
  | .deallocate s => s ∈ exchange.drafts ∨ s ∈ exchange.taken

def opened [Inhabited structureType] (size : Nat) : Exchange blockSize structureType :=
  { shared := setPageSize
      { memoryPool := MemoryPool.empty
        queue := Queue.empty
        userMemory := fun _ => default } size
    drafts := []
    taken := []
    found := fun _ => default
    sent := []
    got := [] }

section Calls

variable {pool : MemoryPool blockSize} {perPage : Nat} {held others : List Block}

theorem good_perm (good : Good pool perPage held) (same : held.Perm others) :
    Good pool perPage others := by
  obtain ⟨available, unavailable, idle, ⟨nodup, availableList, unavailableList, stores⟩, ready,
    exhausted, spare⟩ := good
  refine ⟨available, unavailable, idle, ⟨nodup, availableList, unavailableList, ?_⟩, ready,
    exhausted, spare⟩
  refine ⟨stores.size, stores.allocated, ?_, ?_⟩
  · intro page member
    exact (stores.stocked page member).relent (same.filter _)
  · intro block member
    exact stores.owned block (same.mem_iff.mpr member)

theorem good_nodup (good : Good pool perPage held) : held.Nodup :=
  known_nodup (Or.inl good : Known perPage ⟨pool, held⟩)

theorem good_loaded (good : Good pool perPage held) {block : Block} (member : block ∈ held) :
    ∃ page, pool.load block.parentPage = .ok page := by
  obtain ⟨idle, stocked⟩ := known_stocked (Or.inl good : Known perPage ⟨pool, held⟩) member
  obtain ⟨page, _, _, loaded, _⟩ := stocked.loaded
  exact ⟨page, loaded⟩

theorem read_held (shared : ThreadsafeAllocatingQueue blockSize structureType)
    (good : Good shared.memoryPool perPage held) {s : Block} (member : s ∈ held) :
    shared.read s = .ok (shared.userMemory s) := by
  obtain ⟨page, loaded⟩ := good_loaded good member
  simp only [read, loaded, bind, Except.bind, pure, Except.pure]

theorem write_held (shared : ThreadsafeAllocatingQueue blockSize structureType)
    (good : Good shared.memoryPool perPage held) {s : Block} (member : s ∈ held)
    (value : structureType) :
    shared.write s value =
      .ok { shared with userMemory := Function.update shared.userMemory s value } := by
  obtain ⟨page, loaded⟩ := good_loaded good member
  simp only [write, loaded, bind, Except.bind, pure, Except.pure]

end Calls

section Steps

variable {perPage : Nat} {exchange after : Exchange blockSize structureType} {queued : List Block}

structure Sound (exchange : Exchange blockSize structureType) (perPage : Nat)
    (queued : List Block) : Prop where
  represents : Queue.Represents exchange.shared.queue queued
  good : Good exchange.shared.memoryPool perPage (exchange.drafts ++ queued ++ exchange.taken)
  inOrder : exchange.got ++ queued.map exchange.shared.userMemory = exchange.sent
  unchanged : ∀ s ∈ exchange.taken, exchange.shared.userMemory s = exchange.found s

theorem map_update_outside (content : Block → structureType) (s : Block) (value : structureType)
    {blocks : List Block} (outside : s ∉ blocks) :
    blocks.map (Function.update content s value) = blocks.map content := by
  apply List.map_congr_left
  intro block member
  have apart : block ≠ s := fun same => outside (same ▸ member)
  exact Function.update_of_ne apart _ _

theorem pop_inaccurate_looks (build : Build) (looksEmpty : Bool)
    (shared : ThreadsafeAllocatingQueue blockSize structureType) :
    shared.popInaccurate build looksEmpty =
      if looksEmpty then .ok (none, shared) else shared.pop build := by
  unfold popInaccurate pop
  cases looksEmpty with
  | true => rfl
  | false => cases shared.queue.isEmpty <;> rfl

theorem popped_sound (build : Build) (sound : Sound exchange perPage queued) :
    ∃ answer shared after queued, exchange.shared.pop build = .ok (answer, shared) ∧
      exchange.popped answer shared = .ok after ∧ Sound after perPage queued := by
  obtain ⟨represents, good, inOrder, unchanged⟩ := sound
  have isEmpty := Queue.is_empty_represents represents
  cases queued with
  | nil =>
      refine ⟨none, exchange.shared, exchange, [], ?_, rfl, represents, good, inOrder, unchanged⟩
      simp only [pop, isEmpty]
      rfl
  | cons s rest =>
      obtain ⟨queue, ran, representsAfter, _⟩ := Queue.pop_represents build represents
      let shared : ThreadsafeAllocatingQueue blockSize structureType :=
        { exchange.shared with queue := queue }
      have goodShared : Good shared.memoryPool perPage
          (exchange.drafts ++ s :: rest ++ exchange.taken) := good
      have contents := read_held shared goodShared (s := s) (by simp)
      refine ⟨some s, shared, { exchange with
          shared := shared
          taken := s :: exchange.taken
          found := Function.update exchange.found s (shared.userMemory s)
          got := exchange.got ++ [shared.userMemory s] }, rest, ?_, ?_, representsAfter, ?_, ?_, ?_⟩
      · simp only [pop, isEmpty, List.isEmpty_cons, Bool.false_eq_true, ↓reduceIte, ran, bind,
          Except.bind, pure, Except.pure]
        rfl
      · simp only [Exchange.popped, contents, bind, Except.bind, pure, Except.pure]
      · apply good_perm goodShared
        rw [List.append_assoc, List.append_assoc, List.cons_append]
        exact List.perm_middle.symm.append_left exchange.drafts
      · rw [← inOrder, List.append_assoc]
        rfl
      · intro other member
        by_cases own : other = s
        · subst other
          exact (Function.update_self s (shared.userMemory s) exchange.found).symm
        · have older := (List.mem_cons.mp member).resolve_left own
          exact (unchanged other older).trans (Function.update_of_ne own _ _).symm

variable [Inhabited structureType]

theorem allocate_sound (build : Build) (roomy : 1 < perPage)
    (sound : Sound exchange perPage queued) (mallocs : Mallocs)
    (allowed : Allowed exchange (.allocate mallocs)) :
    ∃ after queued, serve build exchange (.allocate mallocs) = .ok after ∧
      Sound after perPage queued := by
  obtain ⟨represents, good, inOrder, unchanged⟩ := sound
  obtain ⟨filled, page, given, fresh⟩ := allowed
  obtain ⟨s, pool, ran, unheld, goodAfter⟩ :=
    allocate_supplied build roomy good given fresh filled
  simp only [List.mem_append, not_or] at unheld
  let shared : ThreadsafeAllocatingQueue blockSize structureType :=
    { exchange.shared with memoryPool := pool }
  have written := write_held shared goodAfter List.mem_cons_self default
  refine ⟨{ exchange with
      shared := { shared with userMemory := Function.update shared.userMemory s default }
      drafts := s :: exchange.drafts }, queued, ?_, represents, goodAfter, ?_, ?_⟩
  · simp only [shared] at written
    simp only [serve, allocate, ran, written, bind, Except.bind, pure, Except.pure]
    rfl
  · rw [← inOrder]
    congr 1
    exact map_update_outside _ s default unheld.1.2
  · intro other member
    have apart : other ≠ s := fun same => unheld.2 (same ▸ member)
    exact (Function.update_of_ne apart _ _).trans (unchanged other member)

theorem write_sound (build : Build) (sound : Sound exchange perPage queued) (s : Block)
    (value : structureType) (allowed : Allowed exchange (.write s value)) :
    ∃ after queued, serve build exchange (.write s value) = .ok after ∧
      Sound after perPage queued := by
  obtain ⟨represents, good, inOrder, unchanged⟩ := sound
  have member : s ∈ exchange.drafts := allowed
  have written := write_held exchange.shared good
    (List.mem_append_left _ (List.mem_append_left _ member)) value
  obtain ⟨nodup, _, apart⟩ := List.nodup_append.mp (good_nodup good)
  have unqueued : s ∉ queued := fun inside => (List.nodup_append.mp nodup).2.2 s member s inside rfl
  have untaken : s ∉ exchange.taken :=
    fun inside => apart s (List.mem_append_left _ member) s inside rfl
  refine ⟨{ exchange with
      shared := { exchange.shared with
        userMemory := Function.update exchange.shared.userMemory s value } },
    queued, ?_, represents, good, ?_, ?_⟩
  · simp only [serve, written, bind, Except.bind, pure, Except.pure]
  · rw [← inOrder]
    congr 1
    exact map_update_outside _ s value unqueued
  · intro other inside
    have different : other ≠ s := fun same => untaken (same ▸ inside)
    exact (Function.update_of_ne different _ _).trans (unchanged other inside)

theorem push_sound (build : Build) (sound : Sound exchange perPage queued) (s : Block)
    (allowed : Allowed exchange (.push s)) :
    ∃ after queued, serve build exchange (.push s) = .ok after ∧ Sound after perPage queued := by
  obtain ⟨represents, good, inOrder, unchanged⟩ := sound
  have member : s ∈ exchange.drafts := allowed
  have contents := read_held exchange.shared good
    (List.mem_append_left _ (List.mem_append_left _ member))
  obtain ⟨queue, pushed, representsAfter, _⟩ := Queue.push_represents represents s
  refine ⟨{ exchange with
      shared := { exchange.shared with queue := queue }
      drafts := exchange.drafts.erase s
      sent := exchange.sent ++ [exchange.shared.userMemory s] },
    queued ++ [s], ?_, representsAfter, ?_, ?_, unchanged⟩
  · simp only [serve, contents, push, pushed, bind, Except.bind, pure, Except.pure]
  · apply good_perm good
    apply List.Perm.append_right
    refine ((List.perm_cons_erase member).append_right queued).trans ?_
    rw [← List.append_assoc]
    exact (List.perm_append_singleton s (exchange.drafts.erase s ++ queued)).symm
  · rw [List.map_append, ← List.append_assoc, inOrder]
    rfl

theorem deallocate_sound (build : Build) (roomy : 1 < perPage)
    (sound : Sound exchange perPage queued) (s : Block)
    (allowed : Allowed exchange (.deallocate s)) :
    ∃ after queued, serve build exchange (.deallocate s) = .ok after ∧
      Sound after perPage queued := by
  obtain ⟨represents, good, inOrder, unchanged⟩ := sound
  have nodup := good_nodup good
  have member : s ∈ exchange.drafts ++ queued ++ exchange.taken := by
    rcases allowed with draft | taken
    · exact List.mem_append_left _ (List.mem_append_left _ draft)
    · exact List.mem_append_right _ taken
  have contents := read_held exchange.shared good member
  obtain ⟨pool, released, goodAfter⟩ := release_good build roomy good member
  have left : (exchange.drafts ++ queued ++ exchange.taken).erase s =
      exchange.drafts.erase s ++ queued ++ exchange.taken.erase s := by
    obtain ⟨_, _, apart⟩ := List.nodup_append.mp nodup
    rcases allowed with draft | taken
    · have untaken : s ∉ exchange.taken :=
        fun inside => apart s (List.mem_append_left _ draft) s inside rfl
      rw [List.erase_append_left _ (List.mem_append_left _ draft), List.erase_append_left _ draft,
        List.erase_of_not_mem untaken]
    · have elsewhere : s ∉ exchange.drafts ++ queued := fun inside => apart s inside s taken rfl
      have undrafted : s ∉ exchange.drafts := fun inside => elsewhere (List.mem_append_left _ inside)
      rw [List.erase_append_right _ elsewhere, List.erase_of_not_mem undrafted]
  refine ⟨{ exchange with
      shared := { exchange.shared with memoryPool := pool }
      drafts := exchange.drafts.erase s
      taken := exchange.taken.erase s }, queued, ?_, represents, left ▸ goodAfter, inOrder, ?_⟩
  · simp only [serve, deallocate, contents, released, bind, Except.bind, pure, Except.pure]
  · intro other inside
    exact unchanged other (List.mem_of_mem_erase inside)

theorem serve_sound (build : Build) (roomy : 1 < perPage) (sound : Sound exchange perPage queued)
    (call : Call structureType) (allowed : Allowed exchange call) :
    ∃ after queued, serve build exchange call = .ok after ∧ Sound after perPage queued := by
  cases call with
  | allocate mallocs => exact allocate_sound build roomy sound mallocs allowed
  | write s value => exact write_sound build sound s value allowed
  | push s => exact push_sound build sound s allowed
  | pop =>
      obtain ⟨answer, shared, after, queued, ran, popped, soundAfter⟩ := popped_sound build sound
      refine ⟨after, queued, ?_, soundAfter⟩
      simp only [serve, ran, popped, bind, Except.bind]
  | popInaccurate looksEmpty =>
      cases looksEmpty with
      | true => exact ⟨exchange, queued, rfl, sound⟩
      | false =>
          obtain ⟨answer, shared, after, queued, ran, popped, soundAfter⟩ :=
            popped_sound build sound
          refine ⟨after, queued, ?_, soundAfter⟩
          simp only [serve, pop_inaccurate_looks, Bool.false_eq_true, ↓reduceIte, ran, popped, bind,
            Except.bind]
  | deallocate s => exact deallocate_sound build roomy sound s allowed

end Steps

section Runs

theorem release_from_good (build : Build) {perPage : Nat} (roomy : 1 < perPage)
    {queued others : List Block} (count i : Nat) (rest : i + count = queued.length)
    (shared : ThreadsafeAllocatingQueue blockSize structureType)
    (represents : Queue.Represents shared.queue queued)
    (good : Good shared.memoryPool perPage (queued.drop i ++ others)) :
    ∃ after, shared.releaseFrom build count i = .ok after ∧ after.queue = shared.queue ∧
      Good after.memoryPool perPage others := by
  induction count generalizing i shared with
  | zero =>
      refine ⟨shared, rfl, rfl, ?_⟩
      rwa [List.drop_of_length_le (by omega), List.nil_append] at good
  | succ count ih =>
      have inside : i < queued.length := by omega
      rw [List.drop_eq_getElem_cons inside, List.cons_append] at good
      have found := Queue.operator_at_represents build represents (List.getElem?_eq_getElem inside)
      have contents := read_held shared good List.mem_cons_self
      obtain ⟨pool, released, goodAfter⟩ := release_good build roomy good List.mem_cons_self
      rw [List.erase_cons_head] at goodAfter
      obtain ⟨after, ran, sameQueue, goodLast⟩ := ih (i + 1) (by omega)
        { shared with memoryPool := pool } represents goodAfter
      refine ⟨after, ?_, sameQueue, goodLast⟩
      simp only [releaseFrom, found, deallocate, contents, released, ran, bind, Except.bind, pure,
        Except.pure]

variable [Inhabited structureType]

theorem opened_sound (size : Nat) :
    Sound (opened size : Exchange blockSize structureType) (size / blockSize) [] where
  represents := Queue.empty_represents
  good := no_pages_good rfl rfl rfl
  inOrder := rfl
  unchanged := by simp [opened]

def Reached (build : Build) (size : Nat) (exchange : Exchange blockSize structureType) : Prop :=
  Runs.Reach (fun exchange call => (serve build exchange call).toOption) Allowed (opened size)
    exchange

theorem reached_sound (build : Build) (size : Nat) (roomy : 1 < size / blockSize)
    (exchange : Exchange blockSize structureType) (reached : Reached build size exchange) :
    ∃ queued, Sound exchange (size / blockSize) queued := by
  refine Runs.reach_invariant (fun exchange => ∃ queued, Sound exchange (size / blockSize) queued)
    ⟨[], opened_sound size⟩ ?_ reached
  rintro before call after ⟨queued, sound⟩ allowed taken
  obtain ⟨next, left, served, soundAfter⟩ := serve_sound build roomy sound call allowed
  rw [served] at taken
  cases taken
  exact ⟨left, soundAfter⟩

theorem reached_next {build : Build} {size : Nat} {before after : Exchange blockSize structureType}
    (reached : Reached build size before) (call : Call structureType)
    (allowed : Allowed before call) (served : serve build before call = .ok after) :
    Reached build size after := by
  refine .next call reached allowed ?_
  rw [served]
  rfl

theorem seven_sent : ∃ exchange : Exchange 32 Nat, Reached ⟨.x64, true⟩ 64 exchange ∧
    exchange.got = [7] := by
  have unused : Reached ⟨.x64, true⟩ 64 (opened 64 : Exchange 32 Nat) := .start
  have allocated := reached_next unused (.allocate ⟨some 0, true, true⟩) ⟨rfl, 0, rfl, rfl⟩ rfl
  have written := reached_next allocated (.write ⟨0, 1⟩ 7) List.mem_cons_self rfl
  have pushed := reached_next written (.push ⟨0, 1⟩) List.mem_cons_self rfl
  exact ⟨_, reached_next pushed .pop trivial rfl, rfl⟩

/-- No call ever fails, and what was pushed is found in the popped blocks, in
that order: all that is missing still waits in the queue. A popped block keeps
what it holds until it is given back. -/
theorem commands_in_order (build : Build) (size : Nat) (roomy : 1 < size / blockSize)
    (exchange : Exchange blockSize structureType) (reached : Reached build size exchange) :
    (∀ call, Allowed exchange call → ∃ after, serve build exchange call = .ok after) ∧
      (∃ queued, Queue.Represents exchange.shared.queue queued ∧
        exchange.got ++ queued.map exchange.shared.userMemory = exchange.sent) ∧
      ∀ s ∈ exchange.taken, exchange.shared.read s = .ok (exchange.found s) := by
  obtain ⟨queued, sound⟩ := reached_sound build size roomy exchange reached
  refine ⟨?_, ⟨queued, sound.represents, sound.inOrder⟩, ?_⟩
  · intro call allowed
    obtain ⟨after, _, served, _⟩ := serve_sound build roomy sound call allowed
    exact ⟨after, served⟩
  · intro s member
    rw [← sound.unchanged s member]
    exact read_held exchange.shared sound.good (List.mem_append_right _ member)

theorem seven_in_order : ∃ exchange : Exchange 32 Nat, exchange.got = [7] ∧
    (∀ call, Allowed exchange call → ∃ after, serve ⟨.x64, true⟩ exchange call = .ok after) ∧
      (∃ queued, Queue.Represents exchange.shared.queue queued ∧
        exchange.got ++ queued.map exchange.shared.userMemory = exchange.sent) ∧
      ∀ s ∈ exchange.taken, exchange.shared.read s = .ok (exchange.found s) := by
  obtain ⟨exchange, reached, got⟩ := seven_sent
  exact ⟨exchange, got, commands_in_order ⟨.x64, true⟩ 64 (by decide) exchange reached⟩

/-- A block is in one thread's hands or waits in the queue once, never both,
and the pages are at most three more than there are such blocks. -/
theorem blocks_in_one_place (build : Build) (size : Nat) (roomy : 1 < size / blockSize)
    (exchange : Exchange blockSize structureType) (reached : Reached build size exchange) :
    ∃ queued, Queue.Represents exchange.shared.queue queued ∧
      (exchange.drafts ++ queued ++ exchange.taken).Nodup ∧
      ∃ pages : List Nat, pages.Nodup ∧
        (∀ page, exchange.shared.memoryPool.heap page ≠ none ↔ page ∈ pages) ∧
        pages.length < (exchange.drafts ++ queued ++ exchange.taken).length +
          DS_MEMORY_POOL_MAX_FREE_PAGES := by
  obtain ⟨queued, sound⟩ := reached_sound build size roomy exchange reached
  exact ⟨queued, sound.represents, good_nodup sound.good, good_bounded roomy sound.good⟩

theorem seven_in_one_place : ∃ exchange : Exchange 32 Nat, exchange.got = [7] ∧
    ∃ queued, Queue.Represents exchange.shared.queue queued ∧
      (exchange.drafts ++ queued ++ exchange.taken).Nodup ∧
      ∃ pages : List Nat, pages.Nodup ∧
        (∀ page, exchange.shared.memoryPool.heap page ≠ none ↔ page ∈ pages) ∧
        pages.length < (exchange.drafts ++ queued ++ exchange.taken).length +
          DS_MEMORY_POOL_MAX_FREE_PAGES := by
  obtain ⟨exchange, reached, got⟩ := seven_sent
  exact ⟨exchange, got, blocks_in_one_place ⟨.x64, true⟩ 64 (by decide) exchange reached⟩

/-- Whatever is on its way, `Clear` returns and leaves no page behind. -/
theorem clear_leaves_nothing (build : Build) (size : Nat) (roomy : 1 < size / blockSize)
    (exchange : Exchange blockSize structureType) (reached : Reached build size exchange) :
    ∃ after, exchange.shared.clear build = .ok after ∧ Queue.Represents after.queue [] ∧
      after.memoryPool.heap = fun _ => none := by
  obtain ⟨queued, represents, good, _⟩ := reached_sound build size roomy exchange reached
  have together : (exchange.drafts ++ queued ++ exchange.taken).Perm
      (queued.drop 0 ++ (exchange.drafts ++ exchange.taken)) := by
    rw [List.drop_zero, ← List.append_assoc]
    exact List.perm_append_comm.append_right exchange.taken
  obtain ⟨middle, released, sameQueue, goodMiddle⟩ := release_from_good build roomy queued.length 0
    (Nat.zero_add _) exchange.shared represents (good_perm good together)
  obtain ⟨pool, cleared, _, nothing⟩ := clear_good goodMiddle
  refine ⟨{ middle with memoryPool := pool, queue := middle.queue.clear }, ?_, ?_, nothing⟩
  · simp only [clear, Queue.size_represents represents, released, cleared, bind, Except.bind, pure,
      Except.pure]
  · rw [sameQueue]
    exact (Queue.clear_represents represents).1

theorem seven_cleared : ∃ exchange : Exchange 32 Nat, exchange.got = [7] ∧
    ∃ after, exchange.shared.clear ⟨.x64, true⟩ = .ok after ∧ Queue.Represents after.queue [] ∧
      after.memoryPool.heap = fun _ => none := by
  obtain ⟨exchange, reached, got⟩ := seven_sent
  exact ⟨exchange, got, clear_leaves_nothing ⟨.x64, true⟩ 64 (by decide) exchange reached⟩

end Runs

end DataStructures.ThreadsafeAllocatingQueue
