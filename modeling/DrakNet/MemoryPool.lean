import DrakNet.Queue
import DrakNet.Ring

/-!
`DataStructures::MemoryPool`, from which RakPeer takes the packets it puts into
that queue. A pool has pages of blocks in two circular lists: pages with blocks
to give away, and pages that have given away all of theirs. `heap` is what
rakMalloc has handed out for pages, a page that was never written being `none`.
-/

namespace DataStructures

open CString DrakNet Rings

/-- `MemoryWithPage*`: a block is known by its page and its place in there. -/
structure Block where
  parentPage : Nat
  index : Nat
  deriving DecidableEq

structure Page where
  availableStack : List Block
  availableStackSize : Nat
  next : Nat
  prev : Nat
  deriving DecidableEq

/-- `blockSize` is `sizeof(MemoryWithPage)`; a pointer that cannot be followed
is `none`. -/
structure MemoryPool (blockSize : Nat) where
  heap : Nat → Option (Option Page)
  availablePages : Option Nat
  unavailablePages : Option Nat
  availablePagesSize : Nat
  unavailablePagesSize : Nat
  memoryPoolPageSize : Nat

/-- What rakMalloc answers in one call of `Allocate`: for the page, for its
blocks and for its stack. -/
structure Mallocs where
  page : Option Nat
  block : Bool
  availableStack : Bool

def DS_MEMORY_POOL_MAX_FREE_PAGES : Nat := 4

namespace MemoryPool

variable {blockSize : Nat}

def empty : MemoryPool blockSize :=
  { heap := fun _ => none
    availablePages := none
    unavailablePages := none
    availablePagesSize := 0
    unavailablePagesSize := 0
    memoryPoolPageSize := 16384 }

def setPageSize (pool : MemoryPool blockSize) (size : Nat) : MemoryPool blockSize :=
  { pool with memoryPoolPageSize := size }

def blocksPerPage (pool : MemoryPool blockSize) : Nat := pool.memoryPoolPageSize / blockSize

section Memory

/-- A page that is not there, or was never written, has no fields to read. -/
def load (pool : MemoryPool blockSize) (address : Nat) : Except Failure Page :=
  match pool.heap address with
  | some (some page) => .ok page
  | _ => .error (.fault .readPast)

def follow (pointer : Option Nat) : Except Failure Nat :=
  match pointer with
  | some address => .ok address
  | none => .error (.fault .readPast)

def store (pool : MemoryPool blockSize) (address : Nat) (page : Page) : MemoryPool blockSize :=
  { pool with heap := Function.update pool.heap address (some (some page)) }

def free (pool : MemoryPool blockSize) (address : Nat) : MemoryPool blockSize :=
  { pool with heap := Function.update pool.heap address none }

def setNext (pool : MemoryPool blockSize) (address next : Nat) :
    Except Failure (MemoryPool blockSize) := do
  let page ← pool.load address
  return pool.store address { page with next := next }

def setPrev (pool : MemoryPool blockSize) (address prev : Nat) :
    Except Failure (MemoryPool blockSize) := do
  let page ← pool.load address
  return pool.store address { page with prev := prev }

def top (page : Page) : Except Failure Block :=
  match page.availableStackSize with
  | 0 => .error (.fault .readPast)
  | size + 1 =>
      match page.availableStack[size]? with
      | some block => .ok block
      | none => .error (.fault .readPast)

/-- `availableStack[availableStackSize++]=memoryWithPage;` -/
def pushed (page : Page) (block : Block) : Except Failure Page :=
  if page.availableStackSize < page.availableStack.length then
    .ok { page with
      availableStack := page.availableStack.set page.availableStackSize block
      availableStackSize := page.availableStackSize + 1 }
  else .error (.fault .writePast)

end Memory

section Links

def unlink (pool : MemoryPool blockSize) (curPage : Nat) :
    Except Failure (MemoryPool blockSize) := do
  let page ← pool.load curPage
  let pool ← pool.setPrev page.next page.prev
  let page ← pool.load curPage
  pool.setNext page.prev page.next

/-- The same in the other order, as `Release` does it before it frees a page. -/
def unlinkBack (pool : MemoryPool blockSize) (curPage : Nat) :
    Except Failure (MemoryPool blockSize) := do
  let page ← pool.load curPage
  let pool ← pool.setNext page.prev page.next
  let page ← pool.load curPage
  pool.setPrev page.next page.prev

/-- A page becomes the last of a list of `size` pages that starts at `pages`. -/
def append (pool : MemoryPool blockSize) (size : Nat) (pages : Option Nat) (curPage : Nat) :
    Except Failure (Option Nat × MemoryPool blockSize) := do
  if size = 0 then
    let pool ← pool.setNext curPage curPage
    let pool ← pool.setPrev curPage curPage
    return (some curPage, pool)
  else
    let head ← follow pages
    let pool ← pool.setNext curPage head
    let first ← pool.load head
    let pool ← pool.setPrev curPage first.prev
    let first ← pool.load head
    let pool ← pool.setNext first.prev curPage
    let pool ← pool.setPrev head curPage
    return (pages, pool)

end Links

section Calls

/-- `RakAssert(availablePages->availableStackSize>0)`, which only a debug build
looks at. -/
def assertRoom (build : Build) (pool : MemoryPool blockSize) : Except Failure Unit := do
  if build.debug then
    let head ← follow pool.availablePages
    let page ← pool.load head
    Queue.check build (0 < page.availableStackSize)

def retire (build : Build) (pool : MemoryPool blockSize) (curPage : Nat) :
    Except Failure (MemoryPool blockSize) := do
  let page ← pool.load curPage
  let pool : MemoryPool blockSize := { pool with
    availablePagesSize := pool.availablePagesSize - 1
    availablePages := some page.next }
  if pool.availablePagesSize ≠ 0 then
    pool.assertRoom build
  let pool ← pool.unlink curPage
  let (pages, pool) ← pool.append pool.unavailablePagesSize pool.unavailablePages curPage
  return { pool with
    unavailablePages := pages
    unavailablePagesSize := pool.unavailablePagesSize + 1 }

def initPage (pool : MemoryPool blockSize) (page prev : Nat) (mallocs : Mallocs) :
    Except Failure (Bool × MemoryPool blockSize) := do
  if mallocs.block && mallocs.availableStack then
    let next ← follow pool.availablePages
    return (true, pool.store page {
      availableStack := (List.range pool.blocksPerPage).map (Block.mk page)
      availableStackSize := pool.blocksPerPage
      next := next
      prev := prev })
  else
    return (false, pool)

def allocate (build : Build) (pool : MemoryPool blockSize) (mallocs : Mallocs) :
    Except Failure (Option Block × MemoryPool blockSize) := do
  if 0 < pool.availablePagesSize then
    let curPage ← follow pool.availablePages
    let page ← pool.load curPage
    let retVal ← top page
    let pool := pool.store curPage { page with
      availableStackSize := page.availableStackSize - 1 }
    let pool ← if page.availableStackSize - 1 = 0 then pool.retire build curPage else pure pool
    if pool.availablePagesSize ≠ 0 then
      pool.assertRoom build
    return (some retVal, pool)
  else
    match mallocs.page with
    | none => return (none, { pool with availablePages := none })
    | some address =>
        let pool : MemoryPool blockSize := { pool with
          heap := Function.update pool.heap address (some none)
          availablePages := some address
          availablePagesSize := 1 }
        let (initialized, pool) ← pool.initPage address address mallocs
        if !initialized then
          return (none, pool)
        else
          let page ← pool.load address
          -- if this hits, there is not even room for two blocks in a page
          Queue.check build (1 < page.availableStackSize)
          let retVal ← top page
          return (some retVal, pool.store address { page with
            availableStackSize := page.availableStackSize - 1 })

def revive (pool : MemoryPool blockSize) (curPage : Nat) :
    Except Failure (MemoryPool blockSize) := do
  let pool : MemoryPool blockSize :=
    { pool with unavailablePagesSize := pool.unavailablePagesSize - 1 }
  let pool ← pool.unlink curPage
  let page ← pool.load curPage
  let pool : MemoryPool blockSize := { pool with
    unavailablePages := if 0 < pool.unavailablePagesSize ∧ pool.unavailablePages = some curPage
      then some page.next else pool.unavailablePages }
  let (pages, pool) ← pool.append pool.availablePagesSize pool.availablePages curPage
  return { pool with
    availablePages := pages
    availablePagesSize := pool.availablePagesSize + 1 }

def discard (build : Build) (pool : MemoryPool blockSize) (curPage : Nat) :
    Except Failure (MemoryPool blockSize) := do
  let page ← pool.load curPage
  let pool ← if pool.availablePages = some curPage then do
      let pool : MemoryPool blockSize := { pool with availablePages := some page.next }
      pool.assertRoom build
      pure pool
    else pure pool
  let pool ← pool.unlinkBack curPage
  return { pool with availablePagesSize := pool.availablePagesSize - 1 }.free curPage

def release (build : Build) (pool : MemoryPool blockSize) (m : Block) :
    Except Failure (MemoryPool blockSize) := do
  let curPage := m.parentPage
  let page ← pool.load curPage
  let filled ← pushed page m
  let pool := pool.store curPage filled
  if page.availableStackSize = 0 then
    pool.revive curPage
  else if filled.availableStackSize = pool.blocksPerPage ∧
      DS_MEMORY_POOL_MAX_FREE_PAGES ≤ pool.availablePagesSize then
    pool.discard build curPage
  else
    return pool

/-- `while (true)` over the pages from `cur` on, until `first` comes again. -/
def clearFrom (first : Nat) : Nat → Nat → MemoryPool blockSize →
    Except Failure (MemoryPool blockSize)
  | 0, _, _ => .error .endless
  | fuel + 1, cur, pool => do
      let page ← pool.load cur
      let pool := pool.free cur
      if page.next = first then
        return pool
      else
        clearFrom first fuel page.next pool

def clearList (pool : MemoryPool blockSize) (size : Nat) (pages : Option Nat) :
    Except Failure (MemoryPool blockSize) := do
  if 0 < size then
    let head ← follow pages
    clearFrom head size head pool
  else
    return pool

def clear (pool : MemoryPool blockSize) : Except Failure (MemoryPool blockSize) := do
  let pool ← pool.clearList pool.availablePagesSize pool.availablePages
  let pool ← pool.clearList pool.unavailablePagesSize pool.unavailablePages
  return { pool with availablePagesSize := 0, unavailablePagesSize := 0 }

end Calls

end MemoryPool

end DataStructures
