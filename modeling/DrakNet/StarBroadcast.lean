import Mathlib.Data.List.Basic
import Mathlib.Logic.Function.Basic
import Mathlib.Logic.Relation

/-!
Broadcast through a hub. Members join and leave a star; what a member offers
travels up its queue to the hub, which enters it in one log and copies it to
every other member inside. The invariant ties the two queues of a member to the
log: the log and the upward queue together are what it offered, and what it has
shown and the downward queue together are what others have logged since it
joined. Leaving may cut both queues anywhere.
-/

namespace StarBroadcast

inductive Phase where
  | outside
  | inside
  | gone
  deriving DecidableEq

structure Member (Message : Type) where
  phase : Phase
  offered : List Message
  up : List Message
  down : List Message
  shown : List Message
  /-- Length of the log when the member joined. -/
  joined : Nat

structure State (ι Message : Type) where
  member : ι → Member Message
  log : List (Option ι × Message)
  hubShown : List Message

variable {ι Message : Type} [DecidableEq ι]

/-- The messages of the log whose author passes; the hub's own have none. -/
def entries (author : Option ι → Bool) (log : List (Option ι × Message)) : List Message :=
  (log.filter fun entry => author entry.1).map Prod.snd

def byAuthor (i : ι) : List (Option ι × Message) → List Message :=
  entries fun author => author = some i

def foreign (i : ι) : List (Option ι × Message) → List Message :=
  entries fun author => author ≠ some i

def fromMembers : List (Option ι × Message) → List Message :=
  entries Option.isSome

def Member.outside : Member Message :=
  { phase := .outside, offered := [], up := [], down := [], shown := [], joined := 0 }

def Member.offer (member : Member Message) (message : Message) : Member Message :=
  { member with
    offered := member.offered ++ [message]
    up := if member.phase = .inside then member.up ++ [message] else member.up }

def Member.hear (member : Member Message) (message : Message) : Member Message :=
  { member with
    down := if member.phase = .inside then member.down ++ [message] else member.down }

def Member.display (member : Member Message) (message : Message) (rest : List Message) :
    Member Message :=
  { member with down := rest, shown := member.shown ++ [message] }

def Member.join (member : Member Message) (position : Nat) : Member Message :=
  { member with phase := .inside, joined := position }

def Member.leave (member : Member Message) (keptUp keptDown : Nat) : Member Message :=
  { member with
    phase := .gone
    up := member.up.take keptUp
    down := member.down.take keptDown }

namespace State

def start : State ι Message :=
  { member := fun _ => .outside, log := [], hubShown := [] }

def update (state : State ι Message) (i : ι) (member : Member Message) : State ι Message :=
  { state with member := Function.update state.member i member }

def publish (state : State ι Message) (message : Message) : State ι Message :=
  { state with
    member := fun j => (state.member j).hear message
    log := state.log ++ [(none, message)] }

/-- A member's message goes to everyone inside but the member itself. -/
def relay (state : State ι Message) (i : ι) (message : Message) (rest : List Message) :
    State ι Message :=
  { member := fun j =>
      -- no echo: the downward queue of the author stays as it is
      if j = i then { state.member i with up := rest } else (state.member j).hear message
    log := state.log ++ [(some i, message)]
    hubShown := state.hubShown ++ [message] }

end State

inductive Next : State ι Message → State ι Message → Prop where
  | offer (state : State ι Message) (i : ι) (message : Message)
      (admitted : (state.member i).phase ≠ .outside) :
      Next state (state.update i ((state.member i).offer message))
  | publish (state : State ι Message) (message : Message) : Next state (state.publish message)
  | relay (state : State ι Message) (i : ι) (message : Message) (rest : List Message)
      (queued : (state.member i).up = message :: rest) : Next state (state.relay i message rest)
  | display (state : State ι Message) (i : ι) (message : Message) (rest : List Message)
      (queued : (state.member i).down = message :: rest) :
      Next state (state.update i ((state.member i).display message rest))
  | join (state : State ι Message) (i : ι) (absent : (state.member i).phase = .outside) :
      Next state (state.update i ((state.member i).join state.log.length))
  | leave (state : State ι Message) (i : ι) (keptUp keptDown : Nat)
      (present : (state.member i).phase = .inside) :
      Next state (state.update i ((state.member i).leave keptUp keptDown))

def Reachable (state : State ι Message) : Prop :=
  Relation.ReflTransGen Next .start state

structure Member.Sound (i : ι) (log : List (Option ι × Message)) (member : Member Message) :
    Prop where
  position : member.joined ≤ log.length
  absent : member.phase = .outside →
    member.offered = [] ∧ member.down = [] ∧ member.shown = []
  upward : byAuthor i log ++ member.up <+: member.offered
  upwardAll : member.phase = .inside → byAuthor i log ++ member.up = member.offered
  downward : member.shown ++ member.down <+: foreign i (log.drop member.joined)
  downwardAll : member.phase = .inside →
    member.shown ++ member.down = foreign i (log.drop member.joined)

structure Invariant (state : State ι Message) : Prop where
  members : ∀ i, (state.member i).Sound i state.log
  hub : state.hubShown = fromMembers state.log

section Entries

variable (author : Option ι) (message : Message) (log : List (Option ι × Message))

omit [DecidableEq ι] in
theorem entries_snoc (keep : Option ι → Bool) :
    entries keep (log ++ [(author, message)]) =
      entries keep log ++ if keep author then [message] else [] := by
  cases kept : keep author <;> simp [entries, kept]

theorem by_author_other (j : ι) (other : author ≠ some j) :
    byAuthor j (log ++ [(author, message)]) = byAuthor j log := by
  simp [byAuthor, entries_snoc, other]

theorem by_author_own (i : ι) :
    byAuthor i (log ++ [(some i, message)]) = byAuthor i log ++ [message] := by
  simp [byAuthor, entries_snoc]

theorem foreign_other (j : ι) (position : Nat) (bound : position ≤ log.length)
    (other : author ≠ some j) :
    foreign j ((log ++ [(author, message)]).drop position) =
      foreign j (log.drop position) ++ [message] := by
  rw [List.drop_append_of_le_length bound]
  simp [foreign, entries_snoc, other]

theorem foreign_own (i : ι) (position : Nat) (bound : position ≤ log.length) :
    foreign i ((log ++ [(some i, message)]).drop position) = foreign i (log.drop position) := by
  rw [List.drop_append_of_le_length bound]
  simp [foreign, entries_snoc]

end Entries

namespace Member.Sound

variable {i : ι} {log : List (Option ι × Message)} {member : Member Message}

theorem offer (sound : member.Sound i log) (message : Message)
    (admitted : member.phase ≠ .outside) : (member.offer message).Sound i log := by
  constructor
  · exact sound.position
  · intro outside
    exact absurd outside admitted
  -- an offer made after leaving only lengthens what it is compared with
  · by_cases present : member.phase = .inside
    · simp only [Member.offer, present, ↓reduceIte, ← List.append_assoc,
        sound.upwardAll present]
      exact List.prefix_refl _
    · simp only [Member.offer, present, ↓reduceIte]
      exact sound.upward.trans (List.prefix_append _ _)
  · intro present
    have inside : member.phase = .inside := present
    simp only [Member.offer, inside, ↓reduceIte, ← List.append_assoc, sound.upwardAll inside]
  · exact sound.downward
  · exact sound.downwardAll

theorem hear (sound : member.Sound i log) (author : Option ι) (message : Message)
    (other : author ≠ some i) : (member.hear message).Sound i (log ++ [(author, message)]) := by
  have logged := by_author_other author message log i other
  have heard := foreign_other author message log i member.joined sound.position other
  constructor
  · simp only [Member.hear, List.length_append]
    exact Nat.le_add_right_of_le sound.position
  · intro outside
    have absent : member.phase = .outside := outside
    simpa [Member.hear, absent] using sound.absent absent
  · simpa only [Member.hear, logged] using sound.upward
  · intro present
    simpa only [Member.hear, logged] using sound.upwardAll present
  · simp only [Member.hear, heard]
    by_cases present : member.phase = .inside
    · simp only [present, ↓reduceIte, ← List.append_assoc, sound.downwardAll present]
      exact List.prefix_refl _
    · simp only [present, ↓reduceIte]
      exact sound.downward.trans (List.prefix_append _ _)
  · intro present
    have inside : member.phase = .inside := present
    simp only [Member.hear, heard, inside, ↓reduceIte, ← List.append_assoc,
      sound.downwardAll inside]

theorem relayed (sound : member.Sound i log) (message : Message) (rest : List Message)
    (queued : member.up = message :: rest) :
    ({ member with up := rest }).Sound i (log ++ [(some i, message)]) := by
  have logged := by_author_own message log i
  have unheard := foreign_own message log i member.joined sound.position
  have moved : byAuthor i log ++ [message] ++ rest = byAuthor i log ++ member.up := by
    rw [queued, List.append_assoc, List.singleton_append]
  constructor
  · simp only [List.length_append]
    exact Nat.le_add_right_of_le sound.position
  · exact sound.absent
  · simpa only [logged, moved] using sound.upward
  · intro present
    simpa only [logged, moved] using sound.upwardAll present
  · simpa only [unheard] using sound.downward
  · intro present
    simpa only [unheard] using sound.downwardAll present

theorem display (sound : member.Sound i log) (message : Message) (rest : List Message)
    (queued : member.down = message :: rest) : (member.display message rest).Sound i log := by
  have moved : member.shown ++ [message] ++ rest = member.shown ++ member.down := by
    rw [queued, List.append_assoc, List.singleton_append]
  constructor
  · exact sound.position
  · intro outside
    have absent := (sound.absent outside).2.1
    rw [queued] at absent
    cases absent
  · exact sound.upward
  · exact sound.upwardAll
  · simpa only [Member.display, moved] using sound.downward
  · intro present
    simpa only [Member.display, moved] using sound.downwardAll present

theorem join (sound : member.Sound i log) (absent : member.phase = .outside) :
    (member.join log.length).Sound i log := by
  rcases sound.absent absent with ⟨offered, down, shown⟩
  have nothing : byAuthor i log ++ member.up = member.offered := by
    have upward := sound.upward
    rw [offered] at upward ⊢
    exact List.prefix_nil.mp upward
  constructor
  · exact Nat.le_refl _
  · intro outside
    cases outside
  · exact nothing ▸ List.prefix_refl _
  · exact fun _ => nothing
  · simp [Member.join, down, shown]
  · simp [Member.join, down, shown, foreign, entries]

theorem leave (sound : member.Sound i log) (keptUp keptDown : Nat) :
    (member.leave keptUp keptDown).Sound i log := by
  constructor
  · exact sound.position
  · intro outside
    cases outside
  · have kept := (List.prefix_append_right_inj (byAuthor i log)).mpr
      (List.take_prefix keptUp member.up)
    exact kept.trans sound.upward
  · intro present
    cases present
  · have kept := (List.prefix_append_right_inj member.shown).mpr
      (List.take_prefix keptDown member.down)
    exact kept.trans sound.downward
  · intro present
    cases present

end Member.Sound

theorem Invariant.update {state : State ι Message} (sound : Invariant state) (i : ι)
    (member : Member Message) (changed : member.Sound i state.log) :
    Invariant (state.update i member) := by
  constructor
  · intro j
    by_cases same : j = i
    · subst j
      simpa [State.update] using changed
    · simpa [State.update, same] using sound.members j
  · exact sound.hub

theorem start_invariant : Invariant (.start : State ι Message) := by
  constructor
  · intro i
    constructor <;> simp [State.start, Member.outside, byAuthor, foreign, entries]
  · simp [State.start, fromMembers, entries]

theorem next_invariant {before after : State ι Message} (sound : Invariant before)
    (next : Next before after) : Invariant after := by
  cases next with
  | offer i message admitted =>
      exact sound.update i _ ((sound.members i).offer message admitted)
  | publish message =>
      constructor
      · intro j
        exact (sound.members j).hear none message (by simp)
      · simpa [State.publish, fromMembers, entries_snoc] using sound.hub
  | relay i message rest queued =>
      constructor
      · intro j
        by_cases same : j = i
        · subst j
          simpa [State.relay] using (sound.members i).relayed message rest queued
        · have other : some i ≠ some j := fun equal => same (Option.some.inj equal).symm
          simpa [State.relay, same] using (sound.members j).hear (some i) message other
      · have hub := sound.hub
        simp only [fromMembers] at hub
        simp [State.relay, fromMembers, entries_snoc, hub]
  | display i message rest queued =>
      exact sound.update i _ ((sound.members i).display message rest queued)
  | join i absent => exact sound.update i _ ((sound.members i).join absent)
  | leave i keptUp keptDown present =>
      exact sound.update i _ ((sound.members i).leave keptUp keptDown)

theorem reachable_invariant {state : State ι Message} (reached : Reachable state) :
    Invariant state := by
  induction reached with
  | refl => exact start_invariant
  | tail _ next ih => exact next_invariant ih next

end StarBroadcast
