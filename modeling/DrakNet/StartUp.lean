import DrakNet.Process

/-!
The start-up half of main as a grammar: which lines are read, which calls
RakPeer gets in between, and how it ends. Everything known about start-up is
read off `StartedUp`.
-/

namespace DrakNet

open CString Dialogue

def Delivered (build : Build) (site : Site) (text _consumed : List UInt8) : Prop :=
  text.length < getsSize build site ∧ 0 ∉ text

theorem char_source_delivered (build : Build) (site : Site) (input : List UInt8)
    (reading : Reading (List UInt8))
    (read : charSource (getsSize build) site input = some reading) :
    Delivered build site reading.text reading.consumed := by
  have positive : 0 < getsSize build site := by
    cases site <;> cases platform : build.platform <;>
      simp [getsSize, platform, Platform.sizeofPointer, userNameSize, messageSize]
  unfold charSource at read
  split at read
  · cases read
  · cases read
    have bound := gets_text_length (getsSize build site) input
    exact ⟨by omega, gets_text_nul_free _ _⟩

def serverRole (role : List UInt8) : Bool := role.head? = some 115 || role.head? = some 83

def typedPort (text : List UInt8) : Nat :=
  toUnsignedShort (atoi (orDefault text (ascii "1234")))

/-- The calls made for the sockets, and whether the last of them succeeded. -/
def socketCalls (answers : RakPeerAnswers) (isServer : Bool) (port : Nat) : List Effect :=
  let maxConnections := if isServer then 100 else 1
  .startup maxConnections port 2 ::
    (if isServer then [.setMaximumIncomingConnections maxConnections] else []) ++
    if answers.raknetStarted 2 then [] else [.startup maxConnections port 1]

def socketsStarted (answers : RakPeerAnswers) : Bool :=
  answers.raknetStarted 2 || answers.raknetStarted 1

structure Line where
  text : List UInt8
  consumed : List UInt8

def Line.read (line : Line) (site : Site) : Mark Site Effect :=
  .read site line.text line.consumed

def opened (answers : RakPeerAnswers) (role listenPort : Line) : List (Mark Site Effect) :=
  [role.read .role, listenPort.read .listenPort] ++
    (socketCalls answers (serverRole role.text) (typedPort listenPort.text)).map .act

def connected (host port : Line) : List (Mark Site Effect) :=
  [host.read .connectAddress, port.read .connectPort,
    .act (.connect (orDefault host.text (ascii "127.0.0.1")) (typedPort port.text))]

def namedSetup (name : List UInt8) : Except Halt Setup :=
  match loopUserName false name with
  | .error fault => .error (.fault fault)
  | .ok userName => .ok { isServer := false, userName := userName }

def StartsClient (answers : RakPeerAnswers) (role : Line) : Prop :=
  socketsStarted answers = true ∧ serverRole role.text = false

inductive StartedUp (build : Build) (answers : RakPeerAnswers) :
    List (Mark Site Effect) → Option (Except Halt Setup) → Prop where
  | waitsForRole : StartedUp build answers [] none
  | waitsForPort (role : Line) : StartedUp build answers [role.read .role] none
  | exits (role listenPort : Line) (failed : socketsStarted answers = false) :
      StartedUp build answers (opened answers role listenPort) (some (.error (.exit 1)))
  | server (role listenPort : Line) (started : socketsStarted answers = true)
      (isServer : serverRole role.text = true) :
      StartedUp build answers (opened answers role listenPort)
        (some (.ok { isServer := true, userName := serverUserName }))
  | waitsForAddress (role listenPort : Line) (isClient : StartsClient answers role) :
      StartedUp build answers (opened answers role listenPort) none
  | waitsForConnectPort (role listenPort host : Line) (isClient : StartsClient answers role) :
      StartedUp build answers (opened answers role listenPort ++ [host.read .connectAddress]) none
  | asserts (role listenPort host port : Line) (isClient : StartsClient answers role)
      (typed : Delivered build .connectAddress host.text host.consumed)
      (debug : build.debug = true) (refused : answers.connectionAttemptStarted = false) :
      StartedUp build answers (opened answers role listenPort ++ connected host port)
        (some (.error (.fault .assertFailed)))
  | waitsForName (role listenPort host port : Line) (isClient : StartsClient answers role)
      (typed : Delivered build .connectAddress host.text host.consumed)
      (accepted : build.debug = true → answers.connectionAttemptStarted = true) :
      StartedUp build answers (opened answers role listenPort ++ connected host port) none
  | client (role listenPort host port name : Line) (isClient : StartsClient answers role)
      (typed : Delivered build .connectAddress host.text host.consumed)
      (accepted : build.debug = true → answers.connectionAttemptStarted = true)
      (delivered : Delivered build .userName name.text name.consumed) :
      StartedUp build answers
        (opened answers role listenPort ++ connected host port ++ [name.read .userName])
        (some (namedSetup name.text))

theorem start_sockets_bind {Other : Type} (answers : RakPeerAnswers) (isServer : Bool) (port : Nat)
    (next : Bool → Program Site Effect Other) :
    (startSockets answers isServer port).bind next =
      performAll (socketCalls answers isServer port) (next (socketsStarted answers)) := by
  cases isServer <;> cases started : answers.raknetStarted 2 <;>
    simp [startSockets, socketCalls, socketsStarted, started, bind, Program.bind, perform, pure,
      performAll]

theorem connect_explained (build : Build) (answers : RakPeerAnswers) (role listenPort : Line)
    (isClient : StartsClient answers role)
    (next : Except Fault Unit → Program Site Effect (Except Halt Setup))
    (asserts : next (.error .assertFailed) = .done (.error (.fault .assertFailed)))
    (named : next (.ok ()) = .gets .userName fun name => .done (namedSetup name)) :
    ((connectToServer build answers).bind next).Explained (Delivered build)
      fun marks ending =>
        StartedUp build answers (opened answers role listenPort ++ marks) ending := by
  refine ⟨?_, ?_⟩
  · have waits : StartedUp build answers _ none := .waitsForAddress role listenPort isClient
    simpa using waits
  · intro host hostBytes typed
    refine ⟨.waitsForConnectPort role listenPort ⟨host, hostBytes⟩ isClient, ?_⟩
    intro port portBytes _
    change (next (rakAssert build answers.connectionAttemptStarted)).Explained (Delivered build)
      fun marks ending => StartedUp build answers (opened answers role listenPort ++
        (connected ⟨host, hostBytes⟩ ⟨port, portBytes⟩ ++ marks)) ending
    by_cases refused : (build.debug && !answers.connectionAttemptStarted) = true
    · rw [rakAssert, if_pos refused, asserts]
      simp only [Bool.and_eq_true, Bool.not_eq_true'] at refused
      have stopped : StartedUp build answers _ _ := .asserts role listenPort ⟨host, hostBytes⟩
        ⟨port, portBytes⟩ isClient typed refused.1 refused.2
      simpa [Program.Explained] using stopped
    · have accepted : build.debug = true → answers.connectionAttemptStarted = true := by
        simpa using refused
      rw [rakAssert, if_neg refused, named]
      refine ⟨?_, ?_⟩
      · have waits : StartedUp build answers _ none := .waitsForName role listenPort
          ⟨host, hostBytes⟩ ⟨port, portBytes⟩ isClient typed accepted
        simpa using waits
      · intro name nameBytes delivered
        have client := StartedUp.client role listenPort ⟨host, hostBytes⟩ ⟨port, portBytes⟩
          ⟨name, nameBytes⟩ isClient typed accepted delivered
        rw [List.append_assoc] at client
        exact client

theorem start_up_explained (build : Build) (answers : RakPeerAnswers) :
    (startUp build answers).Explained (Delivered build) (StartedUp build answers) := by
  refine ⟨.waitsForRole, ?_⟩
  intro role roleBytes _
  refine ⟨.waitsForPort ⟨role, roleBytes⟩, ?_⟩
  intro listenPort listenPortBytes _
  simp only [Program.bind]
  change ((startSockets answers (serverRole role) (typedPort listenPort)).bind _).Explained _ _
  rw [start_sockets_bind]
  apply explained_perform_all
  change Program.Explained _ (fun marks ending => StartedUp build answers
    (opened answers ⟨role, roleBytes⟩ ⟨listenPort, listenPortBytes⟩ ++ marks) ending) _
  cases started : socketsStarted answers with
  | false =>
      have exits : StartedUp build answers _ _ := .exits ⟨role, roleBytes⟩
        ⟨listenPort, listenPortBytes⟩ started
      simpa [Program.Explained, pure] using exits
  | true =>
      cases isServer : serverRole role with
      | true =>
          have server : StartedUp build answers _ _ := .server ⟨role, roleBytes⟩
            ⟨listenPort, listenPortBytes⟩ started isServer
          simp only [serverRole] at isServer
          simpa [isServer, Program.Explained, pure] using server
      | false =>
          have isClient : StartsClient answers ⟨role, roleBytes⟩ := ⟨started, isServer⟩
          simp only [serverRole] at isServer
          simp only [isServer, Bool.not_true, Bool.false_eq_true, ↓reduceIte]
          refine connect_explained build answers _ _ isClient _ rfl ?_
          simp only [askUserName, ask, bind, Program.bind, pure, Program.gets.injEq, true_and]
          funext name
          unfold namedSetup
          cases loopUserName false name <;> rfl

section Names

variable {name : List UInt8}

theorem named_setup_short (nulFree : 0 ∉ name) (short : name.length ≤ 24) :
    ∃ userName, namedSetup name = .ok { isServer := false, userName := userName } ∧
      Holds userName.bytes (bracketed name) := by
  have size : userNameSize = 30 := rfl
  rcases gets_into_holds serverUserName name nulFree (by omega) with ⟨typed, read, typedHolds⟩
  rcases prefix_user_name_holds typed typedHolds short with ⟨userName, built, spelled⟩
  refine ⟨userName, ?_, spelled⟩
  simp [namedSetup, loopUserName, read, built, bind, Except.bind]

theorem named_setup_long (nulFree : 0 ∉ name) (fits : name.length < userNameSize)
    (long : 24 < name.length) : namedSetup name = .error (.fault .writePast) := by
  rcases gets_into_holds serverUserName name nulFree fits with ⟨typed, read, typedHolds⟩
  have overflow := prefix_user_name_overflow typed typedHolds long
  simp [namedSetup, loopUserName, read, overflow, bind, Except.bind]

end Names

section Faults

variable (build : Build) (answers : RakPeerAnswers)

/-- The connection attempt begins, where that is asserted, and the name fits. -/
structure StartsSafely (marks : List (Mark Site Effect)) : Prop where
  accepted : ∀ host port, .act (.connect host port) ∈ marks → build.debug = true →
    answers.connectionAttemptStarted = true
  shortName : ∀ text consumed, .read .userName text consumed ∈ marks → text.length ≤ 24

theorem connect_not_opened (role listenPort : Line) (host : List UInt8) (port : Nat) :
    .act (.connect host port) ∉ opened answers role listenPort := by
  cases serverRole role.text <;> cases answers.raknetStarted 2 <;>
    simp [opened, socketCalls, Line.read, *]

theorem name_not_opened (role listenPort : Line) (text consumed : List UInt8) :
    .read .userName text consumed ∉ opened answers role listenPort := by
  simp [opened, Line.read]

theorem opened_safely (role listenPort : Line) (rest : List (Mark Site Effect))
    (accepted : ∀ host port, .act (.connect host port) ∈ rest → build.debug = true →
      answers.connectionAttemptStarted = true)
    (shortName : ∀ text consumed, .read .userName text consumed ∈ rest → text.length ≤ 24) :
    StartsSafely build answers (opened answers role listenPort ++ rest) where
  accepted := by
    intro host port member
    rcases List.mem_append.mp member with early | late
    · exact absurd early (connect_not_opened answers role listenPort host port)
    · exact accepted host port late
  shortName := by
    intro text consumed member
    rcases List.mem_append.mp member with early | late
    · exact absurd early (name_not_opened answers role listenPort text consumed)
    · exact shortName text consumed late

/-- Start-up ends in an error outcome exactly where it was not safe. -/
theorem start_up_fault_iff {marks : List (Mark Site Effect)}
    {ending : Option (Except Halt Setup)} (started : StartedUp build answers marks ending) :
    (∃ fault, ending = some (.error (.fault fault))) ↔ ¬ StartsSafely build answers marks := by
  cases started with
  | waitsForRole => simpa using ⟨by simp, by simp⟩
  | waitsForPort role => simpa using ⟨by simp [Line.read], by simp [Line.read]⟩
  | exits role listenPort failed =>
      simpa using opened_safely build answers role listenPort [] (by simp) (by simp)
  | server role listenPort started isServer =>
      simpa using opened_safely build answers role listenPort [] (by simp) (by simp)
  | waitsForAddress role listenPort isClient =>
      simpa using opened_safely build answers role listenPort [] (by simp) (by simp)
  | waitsForConnectPort role listenPort host isClient =>
      simpa using opened_safely build answers role listenPort [host.read .connectAddress]
        (by simp [Line.read]) (by simp [Line.read])
  | asserts role listenPort host port isClient typed debug refused =>
      have connects : Mark.act (.connect (orDefault host.text (ascii "127.0.0.1"))
          (typedPort port.text)) ∈ opened answers role listenPort ++ connected host port := by
        simp [connected]
      constructor
      · intro _ safe
        have accepted := safe.accepted _ _ connects debug
        rw [refused] at accepted
        cases accepted
      · intro _
        exact ⟨.assertFailed, rfl⟩
  | waitsForName role listenPort host port isClient typed accepted =>
      simpa using opened_safely build answers role listenPort (connected host port)
        (fun _ _ _ => accepted) (by simp [connected, Line.read])
  | client role listenPort host port name isClient typed accepted delivered =>
      have named : Mark.read .userName name.text name.consumed ∈
          opened answers role listenPort ++ connected host port ++ [name.read .userName] := by
        simp [Line.read]
      by_cases short : name.text.length ≤ 24
      · rcases named_setup_short delivered.2 short with ⟨userName, built, _⟩
        have safe := opened_safely build answers role listenPort
          (connected host port ++ [name.read .userName]) (fun _ _ _ => accepted)
          (by simpa [connected, Line.read] using short)
        rw [built]
        simpa using safe
      · rw [named_setup_long delivered.2 delivered.1 (Nat.lt_of_not_le short)]
        constructor
        · intro _ safe
          exact short (safe.shortName _ _ named)
        · intro _
          exact ⟨.writePast, rfl⟩

end Faults

end DrakNet
