import DrakNet.Runs
import DrakNet.Session

/-!
One running process. Its stdin is the stream of everything that will be typed;
each event is a loop pass that finds the keyboard hit, or a packet that
`Receive` returns. A pass that waits for a line that never comes, 'quit' and a
fault end the run: no later event has an effect.
-/

namespace DrakNet

open CString Dialogue DefaultMessageIDTypes

structure Peer where
  build : Build
  isServer : Bool
  userName : Buffer userNameSize
  terminated : 0 ∈ userName.bytes

structure ClientName where
  buffer : Buffer userNameSize
  terminated : 0 ∈ buffer.bytes := by decide
  bracket : buffer.bytes.head? = some 91 := by decide

def serverPeer (build : Build) : Peer :=
  { build := build, isServer := true, userName := serverUserName, terminated := by decide }

def clientPeer (build : Build) (name : ClientName) : Peer :=
  { build := build, isServer := false, userName := name.buffer, terminated := name.terminated }

def LoopSetup (setup : Setup) : Prop :=
  (setup.isServer = true ∧ setup.userName = serverUserName) ∨
    (setup.isServer = false ∧ ∃ name : ClientName, setup.userName = name.buffer)

theorem start_up_returns (build : Build) (answers : RakPeerAnswers) :
    (startUp build answers).Returns fun result => ∀ setup, result = .ok setup → LoopSetup setup := by
  apply returns_bind (ask .role)
  intro role
  apply returns_bind (ask .listenPort)
  intro listenPort
  apply returns_bind
  intro socketsStarted
  split
  · exact nofun
  · split
    · rintro setup ⟨⟩
      exact Or.inl ⟨rfl, rfl⟩
    · apply returns_bind
      intro connected
      cases connected with
      | error fault => exact nofun
      | ok _ =>
          intro answer
          simp only [Program.bind, pure]
          cases named : loopUserName false answer with
          | error fault => exact nofun
          | ok userName =>
              rintro setup ⟨⟩
              have bracketed := loop_user_name_bracketed answer userName named
              exact Or.inr ⟨rfl, ⟨userName, bracketed.1, bracketed.2⟩, rfl⟩

theorem started_loop (build : Build) (answers : RakPeerAnswers) (stdin rest : List UInt8)
    (setup : Setup)
    (ran : (Dialogue.run (charSource (getsSize build)) (startUp build answers) stdin).2 =
      some (.ok setup, rest)) : LoopSetup setup :=
  run_returns _ _ (start_up_returns build answers) stdin _ rest ran setup rfl

inductive Status where
  | running
  | waiting
  | quit
  | faulted (fault : Fault)
  deriving DecidableEq

structure LoopState where
  serverAddress : SystemAddress
  stdin : List UInt8
  status : Status
  deriving DecidableEq

def loopEntry (stdin : List UInt8) : LoopState :=
  { serverAddress := .unassignedSystemAddress, stdin := stdin, status := .running }

inductive LoopEvent where
  | kbhit
  | receive (packet : Packet)
  deriving DecidableEq

def passStatus : Pass → Status
  | .quit => .quit
  | .continued => .running
  | .sent => .running
  | .faulted fault => .faulted fault

def kbhit (peer : Peer) (state : LoopState) : LoopState × List Effect :=
  if state.stdin = [] then (state, [])
  else
    match Dialogue.run (charSource (getsSize peer.build))
        (inputPass peer.build peer.isServer peer.userName state.serverAddress) state.stdin with
    -- `Gets` blocks: the rest of the input is used up and no line ends it
    | (marks, none) => ({ state with stdin := [], status := .waiting }, acts marks)
    | (marks, some (pass, rest)) =>
        ({ state with stdin := rest, status := passStatus pass }, acts marks)

def faultStatus : Option Fault → Status
  | none => .running
  | some fault => .faulted fault

/-- What `message` holds at that point does not matter: `relay_fault_iff`
and `relay_fits` are about any contents. -/
def receive (peer : Peer) (state : LoopState) (packet : Packet) : LoopState × List Effect :=
  let handled := handlePacket peer.build peer.isServer (Buffer.init messageSize [])
    state.serverAddress packet
  ({ state with serverAddress := handled.serverAddress, status := faultStatus handled.fault },
    handled.effects)

def step (peer : Peer) (state : LoopState) (event : LoopEvent) : LoopState × List Effect :=
  if state.status = .running then
    match event with
    | .kbhit => kbhit peer state
    | .receive packet => receive peer state packet
  else (state, [])

def Faulted (state : LoopState) : Prop := ∃ fault, state.status = .faulted fault

section Input

variable (peer : Peer) (state : LoopState)

def nextLine (stdin : List UInt8) : List UInt8 := (gets messageSize stdin).text

def TypesChat (state : LoopState) : Prop :=
  state.stdin ≠ [] ∧ isCommand (nextLine state.stdin) = false

def typedSend (peer : Peer) (serverAddress : SystemAddress) (line : List UInt8) : Send :=
  if peer.isServer then
    textSend (chatText (cstring peer.userName.bytes) line) .unassignedSystemAddress true
  else textSend (chatText (cstring peer.userName.bytes) line) serverAddress false

theorem send_line_ok (serverAddress : SystemAddress) (line : List UInt8) (nulFree : 0 ∉ line)
    (fits : line.length < messageSize) :
    sendLine peer.build peer.isServer serverAddress peer.userName line =
      .ok (typedSend peer serverAddress line) := by
  obtain ⟨message, typed, lineHolds⟩ :=
    gets_into_holds (Buffer.init messageSize []) line nulFree fits
  have sent := send_typed_holds peer.build peer.isServer serverAddress peer.userName
    (Buffer.init messageSize []) message (holds_cstring _ peer.terminated) lineHolds
  simpa [sendLine, typed, bind, Except.bind, typedSend] using sent

theorem next_line_fits (stdin : List UInt8) : (nextLine stdin).length < messageSize := by
  have bound := gets_text_length messageSize stdin
  have size : messageSize = 2048 := rfl
  unfold nextLine
  omega

theorem input_pass_run (isServer : Bool) (userName : Buffer userNameSize)
    (serverAddress : SystemAddress) (build : Build) (stdin : List UInt8) (typed : stdin ≠ []) :
    Dialogue.run (charSource (getsSize build)) (inputPass build isServer userName serverAddress)
        stdin =
      let later := Dialogue.run (charSource (getsSize build))
        (handleLine build isServer userName serverAddress (nextLine stdin))
        (gets messageSize stdin).rest
      (.read .message (nextLine stdin) (gets messageSize stdin).consumed :: later.1, later.2) := by
  simp only [inputPass, ask, bind, Program.bind, Dialogue.run, charSource, typed, ↓reduceIte]
  rfl

theorem chat_pass (chat : TypesChat state) :
    kbhit peer state =
      ({ state with stdin := (gets messageSize state.stdin).rest, status := .running },
        [.send (typedSend peer state.serverAddress (nextLine state.stdin))]) := by
  have sent := send_line_ok peer state.serverAddress (nextLine state.stdin)
    (gets_text_nul_free _ _) (next_line_fits state.stdin)
  have handled : handleLine peer.build peer.isServer peer.userName state.serverAddress
      (nextLine state.stdin) =
        .act (.send (typedSend peer state.serverAddress (nextLine state.stdin))) (.done .sent) := by
    unfold handleLine
    rw [check_chat _ chat.2]
    simp only [bind, Program.bind, sent]
    rfl
  rw [kbhit, if_neg chat.1, input_pass_run _ _ _ _ _ chat.1, handled]
  rfl

theorem command_performs (isServer : Bool) (userName : Buffer userNameSize)
    (serverAddress : SystemAddress) (build : Build) (line : List UInt8)
    (command : isCommand line = true) :
    (handleLine build isServer userName serverAddress line).Performs
      fun effect => effect.sent = none ∧ effect.displayed = none := by
  rcases command_cases line command with rfl | rfl | rfl | rfl <;> unfold handleLine
  · rw [check_quit]
    exact ⟨⟨rfl, rfl⟩, trivial⟩
  · rw [check_pingip]
    exact ⟨⟨rfl, rfl⟩, fun _ => ⟨⟨rfl, rfl⟩, fun _ => ⟨⟨rfl, rfl⟩, trivial⟩⟩⟩
  · rw [check_getconnectionlist]
    exact ⟨⟨rfl, rfl⟩, trivial⟩
  · rw [check_ban]
    exact ⟨⟨rfl, rfl⟩, fun _ => ⟨⟨rfl, rfl⟩, ⟨rfl, rfl⟩, trivial⟩⟩

theorem command_returns (isServer : Bool) (userName : Buffer userNameSize)
    (serverAddress : SystemAddress) (build : Build) (line : List UInt8)
    (command : isCommand line = true) :
    (handleLine build isServer userName serverAddress line).Returns
      fun pass => pass = .quit ∨ pass = .continued := by
  rcases command_cases line command with rfl | rfl | rfl | rfl <;> unfold handleLine
  · rw [check_quit]
    exact Or.inl rfl
  · rw [check_pingip]
    exact fun _ _ => Or.inr rfl
  · rw [check_getconnectionlist]
    exact Or.inr rfl
  · rw [check_ban]
    exact fun _ => Or.inr rfl

theorem marks_quiet (marks : List (Mark Site Effect))
    (silent : ∀ effect, .act effect ∈ marks → effect.sent = none ∧ effect.displayed = none) :
    sends (acts marks) = [] ∧ displays (acts marks) = [] := by
  constructor
  · apply List.filterMap_eq_nil_iff.mpr
    intro effect member
    exact (silent effect ((mem_acts marks effect).mp member)).1
  · apply List.filterMap_eq_nil_iff.mpr
    intro effect member
    exact (silent effect ((mem_acts marks effect).mp member)).2

/-- A command reads and acts, but it sends and displays no chat and leaves the
destination of the chat alone. -/
theorem command_pass (command : ¬ TypesChat state) (running : state.status = .running) :
    (sends (kbhit peer state).2 = [] ∧ displays (kbhit peer state).2 = []) ∧
      (kbhit peer state).1.serverAddress = state.serverAddress ∧
      ¬ Faulted (kbhit peer state).1 := by
  by_cases typed : state.stdin = []
  · simp [kbhit, typed, sends, displays, Faulted, running]
  · have isLine : isCommand (nextLine state.stdin) = true := by
      simpa [TypesChat, typed] using command
    have performs := command_performs peer.isServer peer.userName state.serverAddress peer.build
      (nextLine state.stdin) isLine
    have returns := command_returns peer.isServer peer.userName state.serverAddress peer.build
      (nextLine state.stdin) isLine
    have silent := run_performs (charSource (getsSize peer.build)) _ performs
      (gets messageSize state.stdin).rest
    have ending := run_returns (charSource (getsSize peer.build)) _ returns
      (gets messageSize state.stdin).rest
    rw [kbhit, if_neg typed, input_pass_run _ _ _ _ _ typed]
    cases ran : Dialogue.run (charSource (getsSize peer.build))
        (handleLine peer.build peer.isServer peer.userName state.serverAddress
          (nextLine state.stdin)) (gets messageSize state.stdin).rest with
    | mk marks result =>
        rw [ran] at silent ending
        have quiet := marks_quiet marks silent
        cases result with
        | none => exact ⟨quiet, rfl, by simp [Faulted]⟩
        | some result =>
            refine ⟨quiet, rfl, ?_⟩
            rcases ending result.1 result.2 rfl with left | goesOn
            · simp [Faulted, passStatus, left]
            · simp [Faulted, passStatus, goesOn]

end Input

theorem stopped_step (peer : Peer) (state : LoopState) (stopped : state.status ≠ .running)
    (event : LoopEvent) :
    step peer state event = (state, []) := by
  simp [step, stopped]

/-- A client sends from one place only: the typed chat line. -/
theorem client_step_sends (build : Build) (name : ClientName) (state : LoopState)
    (event : LoopEvent) (request : Send)
    (sent : request ∈ sends (step (clientPeer build name) state event).2) :
    state.status = .running ∧ event = .kbhit ∧ TypesChat state ∧
      request = textSend (chatText (cstring name.buffer.bytes) (nextLine state.stdin))
        state.serverAddress false := by
  by_cases running : state.status = .running
  · cases event with
    | kbhit =>
        simp only [step, running, ↓reduceIte] at sent
        by_cases chat : TypesChat state
        · rw [chat_pass (clientPeer build name) state chat] at sent
          simp only [sends, List.filterMap_cons, Effect.sent, List.filterMap_nil,
            List.mem_singleton] at sent
          exact ⟨running, rfl, chat, sent⟩
        · rw [(command_pass (clientPeer build name) state chat running).1.1] at sent
          simp at sent
    | receive packet =>
        have silent := client_relays_nothing build (Buffer.init messageSize [])
          state.serverAddress packet
        simp [step, running, receive, clientPeer, silent] at sent
  · rw [stopped_step (clientPeer build name) state running event] at sent
    simp [sends] at sent

section Receiving

variable (peer : Peer) (state : LoopState) (packet : Packet)

theorem receive_branch (branch : Branch) (taken : packetBranch packet = some branch) :
    receive peer state packet =
      let handled := handleBranch peer.isServer (Buffer.init messageSize []) state.serverAddress
        packet branch
      ({ state with
          serverAddress := handled.serverAddress
          status := faultStatus handled.fault }, handled.effects) := by
  simp only [receive, handle_packet_branch peer.build peer.isServer (Buffer.init messageSize [])
    state.serverAddress packet branch taken]

theorem receive_unidentified (missing : packetBranch packet = none) :
    ∃ fault, receive peer state packet = ({ state with status := .faulted fault }, []) := by
  obtain ⟨fault, outcome⟩ := handle_packet_unidentified peer.build peer.isServer
    (Buffer.init messageSize []) state.serverAddress packet missing
  exact ⟨fault, by simp only [receive, outcome, faultStatus]⟩

/-- A named notification changes nothing but, at a client, the address. -/
theorem receive_named (branch : Branch) (taken : packetBranch packet = some branch)
    (named : branch ≠ .default) (running : state.status = .running) :
    (receive peer state packet).1 = { state with
        serverAddress := if branch = .connectionRequestAccepted ∧ peer.isServer = false
          then packet.systemAddress else state.serverAddress } ∧
      sends (receive peer state packet).2 = [] ∧ displays (receive peer state packet).2 = [] := by
  obtain ⟨silent, hidden, unfaulted⟩ := named_branch_quiet peer.isServer
    (Buffer.init messageSize []) state.serverAddress packet branch named
  have address := server_address_after peer.isServer (Buffer.init messageSize [])
    state.serverAddress packet branch
  rw [receive_branch peer state packet branch taken]
  simp only [silent, hidden, unfaulted, address, faultStatus, ← running, and_self]

theorem receive_default (taken : packetBranch packet = some .default) {text : List UInt8}
    (holds : Holds packet.data text) (fits : text.length < messageSize)
    (running : state.status = .running) :
    receive peer state packet = (state,
      if peer.isServer then [.display text, .send (textSend text packet.systemAddress true)]
      else [.display text]) := by
  rw [receive_branch peer state packet .default taken]
  simp only [handleBranch,
    relay_fits peer.isServer (Buffer.init messageSize []) packet holds fits, faultStatus, ← running]

end Receiving

section Faults

variable (peer : Peer) (state : LoopState)

theorem faulted_run (faulted : Faulted state) (events : List LoopEvent) :
    Faulted (Runs.run (step peer) state events).1 := by
  induction events generalizing state with
  | nil => exact faulted
  | cons event rest ih =>
      have stopped : state.status ≠ .running := by
        rcases faulted with ⟨fault, ended⟩
        simp [ended]
      have same := stopped_step peer state stopped event
      exact ih (step peer state event).1 (by rw [same]; exact faulted)

/-- Typing never faults: every string `Gets` delivers fits its array, and the
composition of `userName` and `message` stays inside `message2`. -/
theorem kbhit_safe (running : state.status = .running) : ¬ Faulted (kbhit peer state).1 := by
  by_cases chat : TypesChat state
  · rw [chat_pass peer state chat]
    simp [Faulted]
  · exact (command_pass peer state chat running).2.2

theorem receive_fault_iff (packet : Packet) :
    ¬ Faulted (receive peer state packet).1 ↔ Receivable packet := by
  rw [← handle_packet_fault_iff peer.build peer.isServer (Buffer.init messageSize [])
    state.serverAddress packet]
  simp only [Faulted, receive]
  cases (handlePacket peer.build peer.isServer (Buffer.init messageSize [])
    state.serverAddress packet).fault <;> simp [faultStatus]

def ReceivesSafely (state : LoopState) (event : LoopEvent) : Prop :=
  state.status = .running → ∀ packet, event = .receive packet → Receivable packet

theorem step_fault_iff (event : LoopEvent) (sound : ¬ Faulted state) :
    ¬ Faulted (step peer state event).1 ↔ ReceivesSafely state event := by
  by_cases running : state.status = .running
  · cases event with
    | kbhit => simpa [step, running, ReceivesSafely] using kbhit_safe peer state running
    | receive packet =>
        simpa [step, running, ReceivesSafely] using receive_fault_iff peer state packet
  · rw [stopped_step peer state running event]
    simp [ReceivesSafely, running, sound]

theorem run_fault_iff (sound : ¬ Faulted state) (events : List LoopEvent) :
    ¬ Faulted (Runs.run (step peer) state events).1 ↔
      Runs.Along (step peer) ReceivesSafely state events := by
  induction events generalizing state with
  | nil => simpa [Runs.run, Runs.Along] using sound
  | cons event rest ih =>
      have first := step_fault_iff peer state event sound
      simp only [Runs.run, Runs.Along]
      -- a fault is final, so the first step decides unless it is safe
      by_cases safe : Faulted (step peer state event).1
      · have ended := faulted_run peer (step peer state event).1 safe rest
        constructor
        · intro unfaulted
          exact absurd ended unfaulted
        · rintro ⟨received, _⟩
          exact absurd safe (first.mpr received)
      · rw [ih (step peer state event).1 safe]
        simp [first.mp safe]

/-- In either role and every build, a run of the loop meets no error outcome
exactly when each packet it receives carries its identifier inside and, if it
takes the default branch, a NUL among its first 2048 bytes. -/
theorem loop_fault_free_iff (stdin : List UInt8) (events : List LoopEvent) :
    ¬ Faulted (Runs.run (step peer) (loopEntry stdin) events).1 ↔
      Runs.Along (step peer) ReceivesSafely (loopEntry stdin) events :=
  run_fault_iff peer (loopEntry stdin) (by simp [Faulted, loopEntry]) events

/-- One byte from a hostile client stops a debug server. -/
theorem bare_timestamp_faults :
    Faulted (Runs.run (step (serverPeer { platform := .x64, debug := true })) (loopEntry [])
      [.receive {
        systemAddress := .assigned 2130706433 50000
        guid := 1
        data := [idTimestamp.messageID] }]).1 :=
  ⟨.assertFailed, by decide⟩

end Faults

end DrakNet
