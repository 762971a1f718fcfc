import DrakNet.Process

/-!
The life of a client's one connection, and where its chat goes meanwhile.
`Link` is the connection as RakPeer reports it, packet by packet. main keeps
less: `g_serverAddress` is set by an acceptance and never cleared, and the input
part of the loop sends to it without asking whether the connection stands.
-/

namespace DrakNet

open CString DefaultMessageIDTypes

def Accepts (address : SystemAddress) (event : LoopEvent) : Prop :=
  ∃ packet, event = .receive packet ∧
    packetBranch packet = some .connectionRequestAccepted ∧ packet.systemAddress = address

def Parts (address : SystemAddress) (event : LoopEvent) : Prop :=
  ∃ packet, event = .receive packet ∧
    (packetBranch packet = some .disconnectionNotification ∨
      packetBranch packet = some .connectionLost) ∧ packet.systemAddress = address

/-- An acceptance from the address has been processed and nothing since then
has said that the connection is gone. -/
def ConnectedTo (history : List LoopEvent) (address : SystemAddress) : Prop :=
  Runs.Since (Accepts address) (Parts address) history

abbrev Link := Option SystemAddress

def Link.closed (link : Link) (address : SystemAddress) : Link :=
  if link = some address then none else link

def linkStep (link : Link) : LoopEvent → Link
  | .kbhit => link
  | .receive packet =>
      match packetBranch packet with
      | some .connectionRequestAccepted => some packet.systemAddress
      | some .disconnectionNotification => link.closed packet.systemAddress
      | some .connectionLost => link.closed packet.systemAddress
      | _ => link

def linkAfter (history : List LoopEvent) : Link := history.foldl linkStep none

theorem link_after_snoc (history : List LoopEvent) (event : LoopEvent) :
    linkAfter (history ++ [event]) = linkStep (linkAfter history) event := by
  simp [linkAfter]

@[simp] theorem accepts_kbhit (address : SystemAddress) : ¬ Accepts address .kbhit := by
  rintro ⟨packet, same, _⟩
  cases same

@[simp] theorem parts_kbhit (address : SystemAddress) : ¬ Parts address .kbhit := by
  rintro ⟨packet, same, _⟩
  cases same

@[simp] theorem accepts_receive (packet : Packet) (address : SystemAddress) :
    Accepts address (.receive packet) ↔
      packetBranch packet = some .connectionRequestAccepted ∧ packet.systemAddress = address := by
  simp [Accepts]

@[simp] theorem parts_receive (packet : Packet) (address : SystemAddress) :
    Parts address (.receive packet) ↔
      (packetBranch packet = some .disconnectionNotification ∨
        packetBranch packet = some .connectionLost) ∧ packet.systemAddress = address := by
  simp [Parts]

theorem link_closed_iff (link : Link) (address other : SystemAddress) :
    link.closed address = some other ↔ link = some other ∧ address ≠ other := by
  unfold Link.closed
  by_cases ours : link = some address
  · simp [ours]
  · rw [if_neg ours]
    constructor
    · intro still
      exact ⟨still, fun same => ours (same ▸ still)⟩
    · exact And.left

theorem accepts_link (link : Link) (event : LoopEvent) (address : SystemAddress)
    (accepted : Accepts address event) : linkStep link event = some address := by
  rcases accepted with ⟨packet, rfl, taken, rfl⟩
  simp [linkStep, taken]

theorem link_kept_iff (link : Link) (event : LoopEvent)
    (none : ∀ other, ¬ Accepts other event) (address : SystemAddress) :
    linkStep link event = some address ↔ link = some address ∧ ¬ Parts address event := by
  cases event with
  | kbhit => simp [linkStep]
  | receive packet =>
      have other : packetBranch packet ≠ some .connectionRequestAccepted := by
        simpa using none packet.systemAddress
      cases taken : packetBranch packet with
      | none => simp [linkStep, taken]
      | some branch =>
          cases branch with
          | connectionRequestAccepted => exact absurd taken other
          | disconnectionNotification => simp [linkStep, taken, link_closed_iff]
          | connectionLost => simp [linkStep, taken, link_closed_iff]
          | _ => simp [linkStep, taken]

section Client

variable (build : Build) (name : ClientName)

theorem accepts_address (state : LoopState) (event : LoopEvent) (address : SystemAddress)
    (running : state.status = .running) (accepted : Accepts address event) :
    (step (clientPeer build name) state event).1.serverAddress = address := by
  rcases accepted with ⟨packet, rfl, taken, rfl⟩
  simp [step, running, receive_branch _ state packet _ taken, server_address_after, clientPeer]

theorem address_kept (state : LoopState) (event : LoopEvent)
    (none : ∀ other, ¬ Accepts other event) :
    (step (clientPeer build name) state event).1.serverAddress = state.serverAddress := by
  by_cases running : state.status = .running
  · cases event with
    | kbhit =>
        simp only [step, running, ↓reduceIte]
        by_cases chat : TypesChat state
        · rw [chat_pass (clientPeer build name) state chat]
        · exact (command_pass (clientPeer build name) state chat running).2.1
    | receive packet =>
        have other : packetBranch packet ≠ some .connectionRequestAccepted := by
          simpa using none packet.systemAddress
        simp only [step, running, ↓reduceIte]
        cases taken : packetBranch packet with
        | none =>
            obtain ⟨fault, outcome⟩ :=
              receive_unidentified (clientPeer build name) state packet taken
            rw [outcome]
        | some branch =>
            have named : branch ≠ .connectionRequestAccepted := fun same => other (same ▸ taken)
            rw [receive_branch (clientPeer build name) state packet branch taken]
            simp [server_address_after, named]
  · rw [stopped_step (clientPeer build name) state running event]

/-- How far `g_serverAddress` follows the connection. A link is always to
`g_serverAddress`; a link that is lost leaves the address behind. -/
def Follows (state : LoopState) (history : List LoopEvent) : Prop :=
  ∀ address, linkAfter history = some address ↔
    address = state.serverAddress ∧ ConnectedTo history address

theorem follows_step (state : LoopState) (history : List LoopEvent) (event : LoopEvent)
    (running : state.status = .running) (follows : Follows state history) :
    Follows (step (clientPeer build name) state event).1 (history ++ [event]) := by
  intro address
  rw [link_after_snoc, ConnectedTo, Runs.since_snoc]
  -- only an acceptance moves the address, and it moves the link along
  by_cases accepting : ∃ other, Accepts other event
  · rcases accepting with ⟨other, accepted⟩
    rw [accepts_link _ event other accepted,
      accepts_address build name state event other running accepted]
    constructor
    · intro same
      cases same
      exact ⟨rfl, Or.inl accepted⟩
    · rintro ⟨rfl, _⟩
      rfl
  · have none : ∀ other, ¬ Accepts other event := not_exists.mp accepting
    rw [link_kept_iff _ event none address, address_kept build name state event none,
      follows address]
    simp [none address, ConnectedTo, and_assoc]

theorem running_before (state : LoopState) (event : LoopEvent)
    (running : (step (clientPeer build name) state event).1.status = .running) :
    state.status = .running := by
  by_contra stopped
  rw [stopped_step (clientPeer build name) state stopped event] at running
  exact stopped running

theorem follows_run (stdin : List UInt8) (history : List LoopEvent)
    (running : (Runs.run (step (clientPeer build name)) (loopEntry stdin) history).1.status =
      .running) :
    Follows (Runs.run (step (clientPeer build name)) (loopEntry stdin) history).1 history := by
  induction history using List.reverseRecOn with
  | nil =>
      intro address
      simp [linkAfter, ConnectedTo, Runs.not_since_nil]
  | append_singleton earlier event ih =>
      rw [Runs.run_snoc] at running ⊢
      -- a run that is still running was running all along
      have before := running_before build name _ event running
      exact follows_step build name _ earlier event before (ih before)

/-- Every chat line goes to an address the client is connected to. -/
def SendsReach (stdin : List UInt8) (events : List LoopEvent) : Prop :=
  ∀ before event after, events = before ++ event :: after →
    ∀ request ∈ sends (step (clientPeer build name)
        (Runs.run (step (clientPeer build name)) (loopEntry stdin) before).1 event).2,
      request.systemIdentifier ≠ .unassignedSystemAddress ∧
        ConnectedTo before request.systemIdentifier

/-- Every chat line is typed while there is a link, to an assigned address. -/
def TypedOnline (stdin : List UInt8) (events : List LoopEvent) : Prop :=
  ∀ before after, events = before ++ .kbhit :: after →
    (Runs.run (step (clientPeer build name)) (loopEntry stdin) before).1.status = .running →
    TypesChat (Runs.run (step (clientPeer build name)) (loopEntry stdin) before).1 →
    ∃ address, linkAfter before = some address ∧ address ≠ .unassignedSystemAddress

theorem chat_sent (state : LoopState) (running : state.status = .running)
    (chat : TypesChat state) :
    sends (step (clientPeer build name) state .kbhit).2 =
      [textSend (chatText (cstring name.buffer.bytes) (nextLine state.stdin))
        state.serverAddress false] := by
  simp only [step, running, ↓reduceIte, chat_pass (clientPeer build name) state chat]
  rfl

end Client

/-- A client's chat reaches its server in exactly the runs in which no chat
line is typed before the connection stands or after it is gone. -/
theorem chat_reaches_server_iff (build : Build) (name : ClientName) (stdin : List UInt8)
    (events : List LoopEvent) :
    SendsReach build name stdin events ↔ TypedOnline build name stdin events := by
  constructor
  · intro reach before after split running chat
    have sent := chat_sent build name _ running chat
    have arrives := reach before .kbhit after split _ (sent ▸ List.mem_singleton_self _)
    exact ⟨_, (follows_run build name stdin before running _).mpr ⟨rfl, arrives.2⟩, arrives.1⟩
  · intro online before event after split request sent
    rcases client_step_sends build name _ event request sent with ⟨running, rfl, chat, rfl⟩
    rcases online before after split running chat with ⟨address, link, assigned⟩
    rcases (follows_run build name stdin before running address).mp link with ⟨rfl, connected⟩
    exact ⟨assigned, connected⟩

def nameA : ClientName :=
  { buffer := Buffer.init userNameSize (ascii "[A] : ") }

theorem early_line_lost :
    ¬ SendsReach { platform := .x64, debug := true } nameA (ascii "hi" ++ [10]) [.kbhit] := by
  intro reach
  have chat : TypesChat (loopEntry (ascii "hi" ++ [10])) := by
    constructor
    · decide
    · decide
  have sent := chat_sent { platform := .x64, debug := true } nameA _ rfl chat
  have arrives := reach [] .kbhit [] rfl _ (sent ▸ List.mem_singleton_self _)
  exact arrives.1 rfl

end DrakNet
