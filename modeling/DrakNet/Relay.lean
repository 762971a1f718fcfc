import DrakNet.Process

/-!
What the server sends on. A notification is a packet of RakPeer's own; the
question is whether one can make the server send anything. The switch names
seven of the thirty ids, and its default branch takes the others for chat.
-/

namespace DrakNet

open CString Dialogue DefaultMessageIDTypes

/-- `ID_CONNECTED_PING` through `ID_DOWNLOAD_PROGRESS`, except `ID_TIMESTAMP`. -/
def isNotification (packet : Packet) : Bool :=
  match packet.data.head? with
  | none => false
  | some first => first ≤ idDownloadProgress.messageID && first != idTimestamp.messageID

def notifies : LoopEvent → Bool
  | .kbhit => false
  | .receive packet => isNotification packet

/-- A notification that arrives at this point is one the switch names. -/
def NamedIfNotified (state : LoopState) (event : LoopEvent) : Prop :=
  state.status = .running → ∀ packet, event = .receive packet →
    isNotification packet = true → packetBranch packet ≠ some .default

def SilentIfNotified (peer : Peer) (state : LoopState) (event : LoopEvent) : Prop :=
  notifies event = true → sends (step peer state event).2 = []

section Server

variable (build : Build)

theorem notification_branch (packet : Packet) (notified : isNotification packet = true) :
    ∃ branch, packetBranch packet = some branch := by
  rcases List.exists_cons_of_ne_nil packet.nonempty with ⟨first, rest, spelled⟩
  have unstamped : first ≠ idTimestamp.messageID := by
    simp [isNotification, spelled] at notified
    exact notified.2
  exact ⟨switchBranch first, by simp [packetBranch, identifierIndex, spelled, unstamped]⟩

theorem named_notification_quiet (state : LoopState) (packet : Packet)
    (running : state.status = .running) (notified : isNotification packet = true)
    (named : packetBranch packet ≠ some .default) :
    (receive (serverPeer build) state packet).1 = state ∧
      sends (receive (serverPeer build) state packet).2 = [] := by
  rcases notification_branch packet notified with ⟨branch, taken⟩
  have other : branch ≠ .default := fun same => named (same ▸ taken)
  obtain ⟨after, silent, _⟩ := receive_named (serverPeer build) state packet branch taken other
    running
  refine ⟨?_, silent⟩
  rw [after]
  simp [serverPeer]

theorem stray_notification_sent (state : LoopState) (packet : Packet)
    (running : state.status = .running) (stray : packetBranch packet = some .default)
    (unfaulted : ¬ Faulted (receive (serverPeer build) state packet).1) :
    (receive (serverPeer build) state packet).1 = state ∧
      sends (receive (serverPeer build) state packet).2 =
        [textSend (cstring packet.data) packet.systemAddress true] := by
  have within := ((receive_fault_iff (serverPeer build) state packet).mp unfaulted).2 stray
  rcases (nul_within_iff packet.data messageSize).mp within with ⟨terminated, fits⟩
  rw [receive_default (serverPeer build) state packet stray (holds_cstring packet.data terminated)
    fits running]
  exact ⟨rfl, rfl⟩

theorem silent_of_named (state : LoopState) (event : LoopEvent)
    (named : NamedIfNotified state event) :
    notifies event = true →
      (step (serverPeer build) state event).1 = state ∧
        sends (step (serverPeer build) state event).2 = [] := by
  intro notified
  by_cases running : state.status = .running
  · cases event with
    | kbhit => simp [notifies] at notified
    | receive packet =>
        have quiet := named_notification_quiet build state packet running notified
          (named running packet rfl notified)
        simpa [step, running] using quiet
  · rw [stopped_step (serverPeer build) state running event]
    exact ⟨rfl, rfl⟩

/-- Deleting the notifications can only shorten what a run sends, and it does
shorten it as soon as one of them was not named. -/
theorem deletion_counts (state : LoopState) (events : List LoopEvent)
    (unfaulted : ¬ Faulted (Runs.run (step (serverPeer build)) state events).1) :
    (sends (Runs.run (step (serverPeer build)) state
        (events.filter fun event => !notifies event)).2).length ≤
      (sends (Runs.run (step (serverPeer build)) state events).2).length ∧
    ((sends (Runs.run (step (serverPeer build)) state
        (events.filter fun event => !notifies event)).2).length =
      (sends (Runs.run (step (serverPeer build)) state events).2).length →
      Runs.Along (step (serverPeer build)) NamedIfNotified state events) := by
  induction events generalizing state with
  | nil => exact ⟨Nat.le_refl _, fun _ => trivial⟩
  | cons event rest ih =>
      have later := ih (step (serverPeer build) state event).1 unfaulted
      cases notified : notifies event with
      | false =>
          have vacuous : NamedIfNotified state event := by
            intro _ packet same noted
            simp [same, notifies, noted] at notified
          simp only [notified, Bool.not_false, List.filter_cons_of_pos, Runs.run, sends_append,
            List.length_append, Runs.Along, vacuous, true_and, Nat.add_le_add_iff_left,
            Nat.add_left_cancel_iff]
          exact later
      | true =>
          simp only [notified, Bool.not_true, Bool.false_eq_true, not_false_eq_true,
            List.filter_cons_of_neg, Runs.run, sends_append, List.length_append, Runs.Along]
          -- unless it is named, deleting this one takes one Send away
          by_cases named : NamedIfNotified state event
          · rcases silent_of_named build state event named notified with ⟨still, silent⟩
            rw [still] at later
            simp only [still, silent, named, true_and, List.length_nil, Nat.zero_add]
            exact later
          · simp only [NamedIfNotified, not_forall, ne_eq, not_not] at named
            rcases named with ⟨running, packet, rfl, _, stray⟩
            have taken : step (serverPeer build) state (.receive packet) =
                receive (serverPeer build) state packet := by simp [step, running]
            have survived : ¬ Faulted (receive (serverPeer build) state packet).1 := by
              intro faulted
              apply unfaulted
              simp only [Runs.run, taken]
              exact faulted_run _ _ faulted rest
            rcases stray_notification_sent build state packet running stray survived with ⟨still, sent⟩
            rw [taken, still] at later
            simp only [taken, still, sent, List.length_singleton]
            constructor
            · omega
            · intro same
              omega

/-- Deleting all notifications from what the server receives leaves its Sends
as they were, and no notification makes it send anything. -/
structure ChatOnly (stdin : List UInt8) (events : List LoopEvent) : Prop where
  unchanged : sends (Runs.run (step (serverPeer build)) (loopEntry stdin)
      (events.filter fun event => !notifies event)).2 =
    sends (Runs.run (step (serverPeer build)) (loopEntry stdin) events).2
  silent : Runs.Along (step (serverPeer build)) (SilentIfNotified (serverPeer build))
    (loopEntry stdin) events

theorem chat_only_of_named (stdin : List UInt8) (events : List LoopEvent)
    (named : Runs.Along (step (serverPeer build)) NamedIfNotified (loopEntry stdin) events) :
    ChatOnly build stdin events := by
  constructor
  · apply (Runs.run_delete _ (fun event => !notifies event) Effect.sent _ events _).2
    apply Runs.along_mono _ _ _ _ named
    intro state event fine notified
    exact silent_of_named build state event fine (by simpa using notified)
  · apply Runs.along_mono _ _ _ _ named
    intro state event fine notified
    exact (silent_of_named build state event fine notified).2

theorem named_of_unchanged (stdin : List UInt8) (events : List LoopEvent)
    (unfaulted : ¬ Faulted (Runs.run (step (serverPeer build)) (loopEntry stdin) events).1)
    (chatOnly : ChatOnly build stdin events) :
    Runs.Along (step (serverPeer build)) NamedIfNotified (loopEntry stdin) events :=
  (deletion_counts build (loopEntry stdin) events unfaulted).2
    (congrArg List.length chatOnly.unchanged)

end Server

section Client

variable (build : Build) (name : ClientName)

def terminated (text : List UInt8) : List UInt8 := text ++ [0]

structure ChatText (text : List UInt8) : Prop where
  nulFree : 0 ∉ text
  bracket : text.head? = some 91
  fits : text.length < messageSize

theorem chat_text_head (userName line : List UInt8) (bracket : userName.head? = some 91) :
    (chatText userName line).head? = some 91 := by
  rcases List.head?_eq_some_iff.mp bracket with ⟨rest, spelled⟩
  simp [chatText, spelled, messageSize]

theorem chat_text (userName line : List UInt8) (nameFree : 0 ∉ userName)
    (lineFree : 0 ∉ line) (bracket : userName.head? = some 91) :
    ChatText (chatText userName line) := by
  constructor
  · intro member
    rcases List.mem_append.mp (List.mem_of_mem_take member) with inName | inLine
    · exact nameFree inName
    · exact lineFree inLine
  · exact chat_text_head userName line bracket
  · have size : messageSize = 2048 := rfl
    rw [chatText, List.length_take]
    omega

theorem name_head : (cstring name.buffer.bytes).head? = some 91 := by
  rcases List.head?_eq_some_iff.mp name.bracket with ⟨rest, spelled⟩
  simp [spelled, cstring]

theorem typed_text (line : List UInt8) (nulFree : 0 ∉ line) :
    ChatText (chatText (cstring name.buffer.bytes) line) :=
  chat_text _ line (cstring_nul_free _) nulFree (name_head name)

theorem client_sends_chat (stdin : List UInt8) (events : List LoopEvent) :
    ∀ request ∈ sends (Runs.run (step (clientPeer build name)) (loopEntry stdin) events).2,
      ∃ text, ChatText text ∧ request.data = terminated text := by
  intro request member
  rcases List.mem_filterMap.mp member with ⟨effect, emitted, found⟩
  have every := Runs.run_outputs (step (clientPeer build name)) (fun _ => True)
    (fun effect => ∀ request, effect.sent = some request →
      ∃ text, ChatText text ∧ request.data = terminated text)
    (fun _ _ _ => trivial) (by
      intro state event _ effect output request found
      have sent : request ∈ sends (step (clientPeer build name) state event).2 :=
        List.mem_filterMap.mpr ⟨effect, output, found⟩
      rcases client_step_sends build name state event request sent with ⟨_, _, _, rfl⟩
      exact ⟨_, typed_text name _ (gets_text_nul_free _ _), rfl⟩) (loopEntry stdin) trivial events
  exact every effect emitted request found

theorem chat_head {packet : Packet} {text : List UInt8} (sound : ChatText text)
    (spelled : packet.data = terminated text) : packet.data.head? = some 91 := by
  rcases List.head?_eq_some_iff.mp sound.bracket with ⟨rest, opening⟩
  simp [spelled, terminated, opening]

theorem bracketed_not_notification (packet : Packet) (bracket : packet.data.head? = some 91) :
    isNotification packet = false := by
  simp only [isNotification, bracket]
  decide

theorem bracketed_branch (packet : Packet) (bracket : packet.data.head? = some 91) :
    identifierIndex packet.data = 0 ∧ packetBranch packet = some .default := by
  have start : packet.data[0]? = some 91 := by rw [← List.head?_eq_getElem?, bracket]
  have plain : identifierIndex packet.data = 0 := by
    simp only [identifierIndex, start]
    decide
  constructor
  · exact plain
  · rw [packetBranch, plain, start]
    decide

end Client

/-- The server relays chat and nothing else in every run whose notifications
are all named by the switch, and in a run without a fault only then. What a
client sends is never a notification. -/
theorem server_relays_only_chat (build : Build) (stdin : List UInt8) (events : List LoopEvent) :
    (Runs.Along (step (serverPeer build)) NamedIfNotified (loopEntry stdin) events →
      ChatOnly build stdin events) ∧
    (¬ Faulted (Runs.run (step (serverPeer build)) (loopEntry stdin) events).1 →
      ChatOnly build stdin events →
      Runs.Along (step (serverPeer build)) NamedIfNotified (loopEntry stdin) events) ∧
    ∀ (clientBuild : Build) (name : ClientName) (typed : List UInt8) (history : List LoopEvent),
      ∀ request ∈ sends
        (Runs.run (step (clientPeer clientBuild name)) (loopEntry typed) history).2,
      ∀ packet : Packet, packet.data = request.data →
        packet.data.head? = some 91 ∧ isNotification packet = false := by
  refine ⟨chat_only_of_named build stdin events, named_of_unchanged build stdin events, ?_⟩
  intro clientBuild name typed history request sent packet same
  rcases client_sends_chat clientBuild name typed history request sent with ⟨text, sound, spelled⟩
  have bracket := chat_head sound (same.trans spelled)
  exact ⟨bracket, bracketed_not_notification packet bracket⟩

def lostConnection : Packet :=
  { systemAddress := .assigned 167772162 50000
    guid := 7
    data := [idConnectionLost.messageID] }

def hiFromA : Packet :=
  { systemAddress := .assigned 167772163 50000
    guid := 8
    data := ascii "[A] : hi" ++ [0] }

theorem lost_connection_not_relayed :
    ChatOnly { platform := .x64, debug := true } [] [.receive lostConnection, .receive hiFromA] :=
  (server_relays_only_chat { platform := .x64, debug := true } []
    [.receive lostConnection, .receive hiFromA]).1 (by
      refine ⟨?_, ?_, trivial⟩
      · rintro _ packet ⟨⟩ _
        decide
      · rintro _ packet ⟨⟩ notified
        exact absurd notified (by decide))

def unconnectedPong : Packet :=
  { systemAddress := .assigned 167772167 60000
    guid := 7
    data := [idUnconnectedPong.messageID, 25, 0, 0, 0] }

theorem pong_is_relayed :
    isNotification unconnectedPong = true ∧
      ¬ ChatOnly { platform := .x64, debug := true } [] [.receive unconnectedPong] := by
  constructor
  · decide
  · intro chatOnly
    have receivable : Receivable unconnectedPong :=
      ⟨by decide, fun _ => (nul_within_iff _ _).mpr ⟨by decide, by decide⟩⟩
    have unfaulted := (receive_fault_iff (serverPeer { platform := .x64, debug := true })
      (loopEntry []) unconnectedPong).mpr receivable
    have sent := (stray_notification_sent { platform := .x64, debug := true } (loopEntry [])
      unconnectedPong rfl (by decide) unfaulted).2
    have silent := chatOnly.silent.1 (by decide)
    simp only [step, loopEntry, ↓reduceIte] at silent sent
    rw [sent] at silent
    exact List.cons_ne_nil _ _ silent

end DrakNet
