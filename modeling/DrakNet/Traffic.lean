import DrakNet.Main

/-!
What main asks of RakPeer, over whole runs: the shape of every call and the
order of the calls. A run's effects are those of its start-up and then those of
its loop, so each result is a fact about `StartedUp` and one about `step`.
-/

namespace DrakNet

open CString Dialogue

def ArrayString (size : Nat) (text : List UInt8) : Prop := text.length < size ∧ 0 ∉ text

/-- Every Send is one terminated string, in order and reliably, on channel 0. -/
def SentText (broadcast : Bool) (request : Send) : Prop :=
  ∃ text systemIdentifier, ArrayString messageSize text ∧
    request = textSend text systemIdentifier broadcast

/-- The effects of a loop that runs in the given role. An address for `Ping` or
`AddToBanList` is shorter than a pointer. -/
def LoopEffect (build : Build) (isServer : Bool) : Effect → Prop
  | .send request => SentText isServer request
  | .ping host remotePort onlyReply =>
      ArrayString build.platform.sizeofPointer host ∧ remotePort < 65536 ∧ onlyReply = false
  | .addToBanList ip => ArrayString build.platform.sizeofPointer ip
  | .getConnectionList numberOfSystems => numberOfSystems = 10
  | .getInternalIDs _ count => count = maximumNumberOfInternalIDs
  | .printf _ _ => True
  | .display _ => True
  | .startup _ _ _ => False
  | .setMaximumIncomingConnections _ => False
  | .connect _ _ => False

theorem typed_port_lt (value : Int) : toUnsignedShort value < 65536 := by
  unfold toUnsignedShort
  omega

section Loop

variable (peer : Peer)

theorem text_fits (name line : List UInt8) (nameFree : 0 ∉ name) (lineFree : 0 ∉ line) :
    ArrayString messageSize (chatText name line) := by
  have size : messageSize = 2048 := rfl
  constructor
  · simp only [chatText, List.length_take]
    omega
  · intro member
    rcases List.mem_append.mp (List.mem_of_mem_take member) with inName | inLine
    · exact nameFree inName
    · exact lineFree inLine

theorem typed_send_text (serverAddress : SystemAddress) (line : List UInt8) (nulFree : 0 ∉ line) :
    SentText peer.isServer (typedSend peer serverAddress line) := by
  have fits := text_fits (cstring peer.userName.bytes) line (cstring_nul_free _) nulFree
  unfold typedSend
  cases peer.isServer <;> exact ⟨_, _, fits, rfl⟩

theorem relay_effects (build : Build) (isServer : Bool) (message : Buffer messageSize)
    (packet : Packet) :
    ∀ effect ∈ (relay isServer message packet).1, LoopEffect build isServer effect := by
  by_cases terminated : 0 ∈ packet.data
  · have holds := holds_cstring packet.data terminated
    by_cases fits : (cstring packet.data).length < messageSize
    · have sent : SentText true (textSend (cstring packet.data) packet.systemAddress true) :=
        ⟨_, _, ⟨fits, cstring_nul_free _⟩, rfl⟩
      rw [relay_fits isServer message packet holds fits]
      cases isServer <;> simp [LoopEffect, sent]
    · rw [relay_overflow isServer message packet holds fits]
      simp [LoopEffect]
  · rw [relay_unterminated isServer message packet terminated]
    simp

theorem receive_effects (state : LoopState) (packet : Packet) :
    ∀ effect ∈ (receive peer state packet).2, LoopEffect peer.build peer.isServer effect := by
  cases taken : packetBranch packet with
  | none =>
      rcases receive_unidentified peer state packet taken with ⟨fault, outcome⟩
      simp [outcome]
  | some branch =>
      rw [receive_branch peer state packet branch taken]
      cases branch with
      | default => exact relay_effects peer.build peer.isServer _ packet
      | _ => simp [handleBranch, LoopEffect]

theorem command_effects (isServer : Bool) (userName : Buffer userNameSize)
    (serverAddress : SystemAddress) (line : List UInt8) (command : isCommand line = true) :
    (handleLine peer.build isServer userName serverAddress line).Explained
      (Delivered peer.build) fun marks _ =>
        ∀ effect ∈ acts marks, LoopEffect peer.build isServer effect := by
  rcases command_cases line command with rfl | rfl | rfl | rfl <;> unfold handleLine
  · rw [check_quit]
    simp [bind, Program.bind, Program.Explained, pure, acts, LoopEffect]
  · rw [check_pingip]
    refine ⟨by simp [acts, LoopEffect], ?_⟩
    intro host hostBytes hostRead
    refine ⟨by simp [acts, LoopEffect], ?_⟩
    intro port portBytes _
    change ∀ effect ∈ [.printf "Enter IP: " [], .printf "Enter port: " [],
      .ping host (typedPort port) false], LoopEffect peer.build isServer effect
    simp only [List.forall_mem_cons]
    exact ⟨trivial, trivial, ⟨hostRead, typed_port_lt _, rfl⟩, by simp⟩
  · rw [check_getconnectionlist]
    simp [bind, Program.bind, Program.Explained, pure, acts, LoopEffect, CONTINUE, QUIT]
  · rw [check_ban]
    refine ⟨by simp [acts, LoopEffect], ?_⟩
    intro ip ipBytes ipRead
    change ∀ effect ∈ [_, .addToBanList ip, _], LoopEffect peer.build isServer effect
    simp only [List.forall_mem_cons]
    exact ⟨trivial, ipRead, trivial, by simp⟩

theorem kbhit_effects (state : LoopState) :
    ∀ effect ∈ (kbhit peer state).2, LoopEffect peer.build peer.isServer effect := by
  by_cases chat : TypesChat state
  · rw [chat_pass peer state chat]
    simpa [LoopEffect] using typed_send_text peer state.serverAddress (nextLine state.stdin)
      (gets_text_nul_free _ _)
  · by_cases typed : state.stdin = []
    · simp [kbhit, typed]
    · have command : isCommand (nextLine state.stdin) = true := by
        simpa [TypesChat, typed] using chat
      have explained := run_explained _ (char_source_delivered peer.build) _
        (command_effects peer peer.isServer peer.userName state.serverAddress _ command)
        (gets messageSize state.stdin).rest
      rw [kbhit, if_neg typed, input_pass_run _ _ _ _ _ typed]
      cases ran : Dialogue.run (charSource (getsSize peer.build))
          (handleLine peer.build peer.isServer peer.userName state.serverAddress
            (nextLine state.stdin)) (gets messageSize state.stdin).rest with
      | mk marks ending =>
          rw [ran] at explained
          cases ending with
          | none => exact explained
          | some ending => exact explained

theorem step_effects (state : LoopState) (event : LoopEvent) :
    ∀ effect ∈ (step peer state event).2, LoopEffect peer.build peer.isServer effect := by
  by_cases running : state.status = .running
  · cases event with
    | kbhit => simpa only [step, running, ↓reduceIte] using kbhit_effects peer state
    | receive packet => simpa only [step, running, ↓reduceIte] using receive_effects peer state packet
  · rw [stopped_step peer state running event]
    simp

theorem loop_effects (state : LoopState) (events : List LoopEvent) :
    ∀ effect ∈ (Runs.run (step peer) state events).2, LoopEffect peer.build peer.isServer effect :=
  Runs.run_outputs (step peer) (fun _ => True) _ (fun _ _ _ => trivial)
    (fun state event _ => step_effects peer state event) state trivial events

end Loop

section StartUp

variable {build : Build} {answers : RakPeerAnswers}

@[simp] theorem acts_opened (role listenPort : Line) :
    acts (opened answers role listenPort) =
      socketCalls answers (serverRole role.text) (typedPort listenPort.text) := by
  rw [opened, acts_append, acts_map_act]
  rfl

@[simp] theorem acts_connected (host port : Line) :
    acts (connected host port) =
      [.connect (orDefault host.text (ascii "127.0.0.1")) (typedPort port.text)] :=
  rfl

@[simp] theorem acts_read (line : Line) (site : Site) : acts [line.read site] = [] := rfl

end StartUp

section Shape

def WellFormed (build : Build) : Effect → Prop
  | .startup maxConnections port socketDescriptorCount =>
      (maxConnections = 1 ∨ maxConnections = 100) ∧ port < 65536 ∧
        (socketDescriptorCount = 1 ∨ socketDescriptorCount = 2)
  | .setMaximumIncomingConnections numberAllowed => numberAllowed = 100
  | .connect host remotePort => ArrayString 30 host ∧ host ≠ [] ∧ remotePort < 65536
  | .send request => SentText request.broadcast request
  | effect => LoopEffect build true effect

variable {build : Build} {answers : RakPeerAnswers}

theorem loop_well_formed {isServer : Bool} {effect : Effect}
    (allowed : LoopEffect build isServer effect) : WellFormed build effect := by
  cases effect with
  | send request =>
      rcases allowed with ⟨text, systemIdentifier, fits, rfl⟩
      exact ⟨text, systemIdentifier, fits, rfl⟩
  | startup _ _ _ => exact allowed.elim
  | setMaximumIncomingConnections _ => exact allowed.elim
  | connect _ _ => exact allowed.elim
  | _ => exact allowed

theorem socket_calls_well_formed (isServer : Bool) (text : List UInt8) :
    ∀ effect ∈ socketCalls answers isServer (typedPort text), WellFormed build effect := by
  have port : typedPort text < 65536 := typed_port_lt _
  cases isServer <;> cases answers.raknetStarted 2 <;>
    simp [socketCalls, WellFormed, *]

theorem connected_well_formed (host port : Line)
    (typed : Delivered build .connectAddress host.text host.consumed) :
    ∀ effect ∈ acts (connected host port), WellFormed build effect := by
  simp only [acts_connected, List.mem_singleton, forall_eq]
  unfold orDefault
  split
  · exact ⟨⟨by decide, by decide⟩, by decide, typed_port_lt _⟩
  · next some => exact ⟨typed, some, typed_port_lt _⟩

theorem started_well_formed {marks : List (Mark Site Effect)}
    {ending : Option (Except Halt Setup)} (started : StartedUp build answers marks ending) :
    ∀ effect ∈ acts marks, WellFormed build effect := by
  have sockets (role listenPort : Line) :
      ∀ effect ∈ acts (opened answers role listenPort), WellFormed build effect := by
    rw [acts_opened]
    exact socket_calls_well_formed _ _
  have connects (role listenPort host port : Line)
      (typed : Delivered build .connectAddress host.text host.consumed) :
      ∀ effect ∈ acts (opened answers role listenPort ++ connected host port),
        WellFormed build effect := by
    rw [acts_append]
    exact List.forall_mem_append.mpr ⟨sockets role listenPort, connected_well_formed host port typed⟩
  cases started with
  | waitsForRole => simp [acts]
  | waitsForPort role => simp
  | exits role listenPort _ => exact sockets role listenPort
  | server role listenPort _ _ => exact sockets role listenPort
  | waitsForAddress role listenPort _ => exact sockets role listenPort
  | waitsForConnectPort role listenPort host _ =>
      rw [acts_append, acts_read, List.append_nil]
      exact sockets role listenPort
  | asserts role listenPort host port _ typed _ _ => exact connects role listenPort host port typed
  | waitsForName role listenPort host port _ typed _ =>
      exact connects role listenPort host port typed
  | client role listenPort host port name _ typed _ _ =>
      rw [acts_append, acts_read, List.append_nil]
      exact connects role listenPort host port typed

/-- Whatever is typed and whatever arrives, every call main makes in a run is
well formed. -/
theorem main_well_formed (build : Build) (answers : RakPeerAnswers) (stdin : List UInt8)
    (events : List LoopEvent) :
    ∀ effect ∈ (mainRun build answers stdin events).2, WellFormed build effect := by
  have started := start_run_explained build answers stdin
  have outcome := main_run_cases build answers stdin events
  generalize mainRun build answers stdin events = result at outcome
  cases outcome with
  | waits marks ran =>
      rw [ran] at started
      exact started_well_formed started
  | halts marks halt rest ran =>
      rw [ran] at started
      exact started_well_formed started
  | loops marks setup rest reached ran =>
      rw [ran] at started
      refine List.forall_mem_append.mpr ⟨started_well_formed started, ?_⟩
      intro effect member
      exact loop_well_formed (loop_effects _ _ events effect member)

theorem ban_well_formed :
    WellFormed { platform := .x64, debug := true } (.addToBanList (ascii "10.0.0.")) :=
  main_well_formed _ DrakNet.started (ascii "s\n\nban\n10.0.0.7\n") [.kbhit] _ (by decide +kernel)

end Shape

section Order

/-- The calls of a program that is in its loop, and what it prints. -/
def talks (broadcast : Bool) : Effect → Bool
  | .startup _ _ _ => false
  | .setMaximumIncomingConnections _ => false
  | .connect _ _ => false
  | .send request => request.broadcast = broadcast
  | _ => true

/-- What a run has asked of RakPeer, in order, and where that has got it. -/
inductive InOrder (answers : RakPeerAnswers) : Ending → List Effect → Prop where
  -- no sockets before the port is known
  | silent : InOrder answers .waiting []
  | exits (isServer : Bool) (port : Nat) (failed : socketsStarted answers = false) :
      InOrder answers (.halted (.exit 1)) (socketCalls answers isServer port)
  -- a client that does not know yet where to connect
  | unconnected (port : Nat) (started : socketsStarted answers = true) :
      InOrder answers .waiting (socketCalls answers false port)
  | server (port : Nat) (started : socketsStarted answers = true) (state : LoopState)
      (talk : List Effect) (talking : ∀ effect ∈ talk, talks true effect = true) :
      InOrder answers (.looping state) (socketCalls answers true port ++ talk)
  | client (port : Nat) (started : socketsStarted answers = true) (host : List UInt8)
      (remotePort : Nat) (ending : Ending) (talk : List Effect)
      (talking : ∀ effect ∈ talk, talks false effect = true)
      (looping : talk ≠ [] → ∃ state, ending = .looping state) :
      InOrder answers ending
        (socketCalls answers false port ++ .connect host remotePort :: talk)

variable {build : Build} {answers : RakPeerAnswers} {marks : List (Mark Site Effect)}
  {outcome : Option (Except Halt Setup)}

theorem loop_talks {isServer : Bool} {effect : Effect} (allowed : LoopEffect build isServer effect) :
    talks isServer effect = true := by
  cases effect with
  | send request =>
      rcases allowed with ⟨text, systemIdentifier, _, rfl⟩
      simp [talks, textSend]
  | startup _ _ _ => exact allowed.elim
  | setMaximumIncomingConnections _ => exact allowed.elim
  | connect _ _ => exact allowed.elim
  | _ => rfl

theorem connected_in_order (role listenPort host port : Line)
    (isClient : StartsClient answers role) (ending : Ending) (talk : List Effect)
    (talking : ∀ effect ∈ talk, talks false effect = true)
    (looping : talk ≠ [] → ∃ state, ending = .looping state) :
    InOrder answers ending (acts (opened answers role listenPort ++ connected host port) ++ talk) := by
  rw [acts_append, acts_opened, acts_connected, isClient.2, List.append_assoc]
  exact .client _ isClient.1 _ _ ending talk talking looping

theorem unconnected_in_order (role listenPort : Line) (isClient : StartsClient answers role) :
    InOrder answers .waiting (acts (opened answers role listenPort)) := by
  rw [acts_opened, isClient.2]
  exact .unconnected _ isClient.1

theorem waiting_in_order (started : StartedUp build answers marks none) :
    InOrder answers .waiting (acts marks) := by
  cases started with
  | waitsForRole => exact .silent
  | waitsForPort role => exact .silent
  | waitsForAddress role listenPort isClient =>
      exact unconnected_in_order role listenPort isClient
  | waitsForConnectPort role listenPort host isClient =>
      rw [acts_append, acts_read, List.append_nil]
      exact unconnected_in_order role listenPort isClient
  | waitsForName role listenPort host port isClient _ _ =>
      simpa using connected_in_order role listenPort host port isClient .waiting [] (by simp)
        (by simp)

theorem halted_in_order {halt : Halt} (started : StartedUp build answers marks outcome)
    (stops : outcome = some (.error halt)) : InOrder answers (.halted halt) (acts marks) := by
  cases started with
  | exits role listenPort failed =>
      cases stops
      rw [acts_opened]
      exact .exits _ _ failed
  | asserts role listenPort host port isClient _ _ _ =>
      simpa using connected_in_order role listenPort host port isClient (.halted halt) [] (by simp)
        (by simp)
  | client role listenPort host port name isClient _ _ _ =>
      rw [acts_append, acts_read, List.append_nil]
      simpa using connected_in_order role listenPort host port isClient (.halted halt) [] (by simp)
        (by simp)
  | _ => cases stops

theorem looping_in_order {setup : Setup} (started : StartedUp build answers marks outcome)
    (enters : outcome = some (.ok setup)) (state : LoopState) (talk : List Effect)
    (talking : ∀ effect ∈ talk, talks setup.isServer effect = true) :
    InOrder answers (.looping state) (acts marks ++ talk) := by
  cases started with
  | server role listenPort started isServer =>
      cases enters
      rw [acts_opened, isServer]
      exact .server _ started state talk talking
  | client role listenPort host port name isClient _ _ _ =>
      have asClient : setup.isServer = false := by
        unfold namedSetup at enters
        split at enters <;> cases enters
        rfl
      rw [asClient] at talking
      rw [acts_append (opened answers role listenPort ++ connected host port), acts_read,
        List.append_nil]
      exact connected_in_order role listenPort host port isClient (.looping state) talk talking
        fun _ => ⟨state, rfl⟩
  | _ => cases enters

/-- From the first prompt on, RakPeer is called in the order its interface asks
for: the sockets, with a server's bound on its connections behind the first
attempt, then a client's one Connect, and only then what the loop has to say. -/
theorem calls_in_order (build : Build) (answers : RakPeerAnswers) (stdin : List UInt8)
    (events : List LoopEvent) :
    InOrder answers (mainRun build answers stdin events).1
      (mainRun build answers stdin events).2 := by
  have started := start_run_explained build answers stdin
  have outcome := main_run_cases build answers stdin events
  generalize mainRun build answers stdin events = result at outcome
  cases outcome with
  | waits marks ran =>
      rw [ran] at started
      exact waiting_in_order started
  | halts marks halt rest ran =>
      rw [ran] at started
      exact halted_in_order started rfl
  | loops marks setup rest reached ran =>
      rw [ran] at started
      apply looping_in_order started rfl
      intro effect member
      exact loop_talks
        (loop_effects (loopPeer build setup reached) (loopEntry rest) events effect member)

end Order

end DrakNet
