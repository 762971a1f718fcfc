import DrakNet.PoolLife

/-!
`DataStructures::ThreadsafeAllocatingQueue`: a queue of structures that live in
the blocks of a pool. RakPeer has one of them for what main asks of it,
`bufferedCommands`, which its own thread takes up.

Each call is one step. `Push` and `Pop` lock `queueMutex`, and `PopInaccurate`
after a first look at the queue; `Allocate` and `Deallocate` lock
`memoryPoolMutex` and construct or destroy outside, in a block that is the
caller's alone. `Clear` goes through the queue under `memoryPoolMutex` only:
nothing keeps a `Push` out of it, so it is one step only where no other thread
is at the queue.
-/

namespace DataStructures

open DrakNet

structure ThreadsafeAllocatingQueue (blockSize : Nat) (structureType : Type) where
  memoryPool : MemoryPool blockSize
  queue : Queue Block
  userMemory : Block → structureType

namespace ThreadsafeAllocatingQueue

variable {blockSize : Nat} {structureType : Type}

def setPageSize (shared : ThreadsafeAllocatingQueue blockSize structureType) (size : Nat) :
    ThreadsafeAllocatingQueue blockSize structureType :=
  { shared with memoryPool := shared.memoryPool.setPageSize size }

section Blocks

def read (shared : ThreadsafeAllocatingQueue blockSize structureType) (s : Block) :
    Except Failure structureType := do
  let _ ← shared.memoryPool.load s.parentPage
  return shared.userMemory s

def write (shared : ThreadsafeAllocatingQueue blockSize structureType) (s : Block)
    (value : structureType) :
    Except Failure (ThreadsafeAllocatingQueue blockSize structureType) := do
  let _ ← shared.memoryPool.load s.parentPage
  return { shared with userMemory := Function.update shared.userMemory s value }

end Blocks

section Calls

def push (shared : ThreadsafeAllocatingQueue blockSize structureType) (s : Block) :
    Except Failure (ThreadsafeAllocatingQueue blockSize structureType) := do
  let queue ← shared.queue.push s
  return { shared with queue := queue }

def pop (build : Build) (shared : ThreadsafeAllocatingQueue blockSize structureType) :
    Except Failure (Option Block × ThreadsafeAllocatingQueue blockSize structureType) := do
  if shared.queue.isEmpty then
    return (none, shared)
  else
    let (s, queue) ← shared.queue.pop build
    return (some s, { shared with queue := queue })

/-- What the first look saw may be out of date. -/
def popInaccurate (build : Build) (looksEmpty : Bool)
    (shared : ThreadsafeAllocatingQueue blockSize structureType) :
    Except Failure (Option Block × ThreadsafeAllocatingQueue blockSize structureType) := do
  if looksEmpty then
    return (none, shared)
  else if !shared.queue.isEmpty then
    let (s, queue) ← shared.queue.pop build
    return (some s, { shared with queue := queue })
  else
    return (none, shared)

/-- The structure is constructed at the pointer that the pool gives, be it 0. -/
def allocate [Inhabited structureType] (build : Build)
    (shared : ThreadsafeAllocatingQueue blockSize structureType) (mallocs : Mallocs) :
    Except Failure (Block × ThreadsafeAllocatingQueue blockSize structureType) := do
  let (s, memoryPool) ← shared.memoryPool.allocate build mallocs
  match s with
  | none => .error (.fault .writePast)
  | some s =>
      let shared ← { shared with memoryPool := memoryPool }.write s default
      return (s, shared)

def deallocate (build : Build) (shared : ThreadsafeAllocatingQueue blockSize structureType)
    (s : Block) : Except Failure (ThreadsafeAllocatingQueue blockSize structureType) := do
  -- the destructor
  let _ ← shared.read s
  let memoryPool ← shared.memoryPool.release build s
  return { shared with memoryPool := memoryPool }

/-- `for (unsigned int i=0; i < queue.Size(); i++)`, `count` times from `i` on. -/
def releaseFrom (build : Build) (shared : ThreadsafeAllocatingQueue blockSize structureType) :
    Nat → Nat → Except Failure (ThreadsafeAllocatingQueue blockSize structureType)
  | 0, _ => .ok shared
  | count + 1, i => do
      let s ← shared.queue.operatorAt build i
      let shared ← shared.deallocate build s
      releaseFrom build shared count (i + 1)

def clear (build : Build) (shared : ThreadsafeAllocatingQueue blockSize structureType) :
    Except Failure (ThreadsafeAllocatingQueue blockSize structureType) := do
  let shared ← shared.releaseFrom build shared.queue.size 0
  let shared : ThreadsafeAllocatingQueue blockSize structureType :=
    { shared with queue := shared.queue.clear }
  let memoryPool ← shared.memoryPool.clear
  return { shared with memoryPool := memoryPool }

end Calls

end ThreadsafeAllocatingQueue

end DataStructures
