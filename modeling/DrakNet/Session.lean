import DrakNet.Dialogue
import DrakNet.Messages

/-!
The terminal half of main: the start-up prompts, `checkForCommands` and the
input part of the loop, as a program that asks at the nine `Gets` call sites.
The static banners it prints are left out.
-/

namespace DrakNet

open CString Dialogue

inductive Site where
  | role
  | listenPort
  | connectAddress
  | connectPort
  | userName
  | message
  | pingAddress
  | pingPort
  | banAddress
  deriving DecidableEq

/-- The size each call passes. `checkForCommands` takes `message` as a pointer,
so its two `sizeof(message)` are the size of a pointer. -/
def getsSize (build : Build) : Site → Nat
  | .role => 30
  | .listenPort => 30
  | .connectAddress => 30
  | .connectPort => 10
  | .userName => userNameSize
  | .message => messageSize
  | .pingAddress => build.platform.sizeofPointer
  | .pingPort => 30
  | .banAddress => build.platform.sizeofPointer

def arraySize : Site → Nat
  | .role => 30
  | .listenPort => 30
  | .connectAddress => 30
  | .connectPort => 10
  | .userName => userNameSize
  | .message => messageSize
  | .pingAddress => messageSize
  | .pingPort => 30
  | .banAddress => messageSize

def isSpace (char : UInt8) : Bool := char == 32 || (9 ≤ char && char ≤ 13)

def isDigit (char : UInt8) : Bool := 48 ≤ char && char ≤ 57

def digits (value : Nat) : List UInt8 → Nat
  | [] => value
  | char :: rest =>
      if isDigit char then digits (10 * value + (char.toNat - 48)) rest else value

/-- The value of a number beyond `int`, which C leaves open, is the one its
digits say. -/
def atoi (text : List UInt8) : Int :=
  match text.dropWhile isSpace with
  | [] => 0
  | char :: rest =>
      if char = 45 then -(digits 0 rest : Int)
      else if char = 43 then digits 0 rest
      else digits 0 (char :: rest)

def toUnsignedShort (value : Int) : Nat := (value % 65536).toNat

/-- `if (text[0] == 0) strcpy(text, fallback);` -/
def orDefault (text fallback : List UInt8) : List UInt8 :=
  if text = [] then fallback else text

def QUIT : Nat := 0

def CONTINUE : Nat := 1

def checkForCommands (message : List UInt8) : Program Site Effect Nat := do
  if message = ascii "quit" then
    perform (.printf "Quitting.\n" [])
    return QUIT
  else if message = ascii "pingip" then
    perform (.printf "Enter IP: " [])
    -- the address goes into the array that held the command
    let message ← ask .pingAddress
    perform (.printf "Enter port: " [])
    let userInput ← ask .pingPort
    perform (.ping message (toUnsignedShort (atoi (orDefault userInput (ascii "1234")))) false)
    return CONTINUE
  else if message = ascii "getconnectionlist" then
    perform (.getConnectionList 10)
    return CONTINUE
  else if message = ascii "ban" then
    perform (.printf "Enter IP to ban.  You can use * as a wildcard\n" [])
    let message ← ask .banAddress
    perform (.addToBanList message)
    perform (.printf "IP %s added to ban list.\n" [.text message])
    return CONTINUE
  else
    return 3

/-- What RakPeer answers while main starts up: whether `Startup` succeeds with
a given number of socket descriptors, and whether `Connect` could begin. -/
structure RakPeerAnswers where
  raknetStarted : Nat → Bool
  connectionAttemptStarted : Bool

inductive Halt where
  | exit (code : Nat)
  | fault (fault : Fault)
  deriving DecidableEq

structure Setup where
  isServer : Bool
  userName : Buffer userNameSize

def startSockets (answers : RakPeerAnswers) (isServer : Bool) (port : Nat) :
    Program Site Effect Bool := do
  let maxConnections := if isServer then 100 else 1
  perform (.startup maxConnections port 2)
  if isServer then
    perform (.setMaximumIncomingConnections maxConnections)
  if answers.raknetStarted 2 then
    return true
  -- try again, but leave out IPV6
  else
    perform (.startup maxConnections port 1)
    return answers.raknetStarted 1

def connectToServer (build : Build) (answers : RakPeerAnswers) :
    Program Site Effect (Except Fault Unit) := do
  let userInput ← ask .connectAddress
  let host := orDefault userInput (ascii "127.0.0.1")
  let port ← ask .connectPort
  perform (.connect host (toUnsignedShort (atoi (orDefault port (ascii "1234")))))
  return rakAssert build answers.connectionAttemptStarted

def askUserName : Program Site Effect (Except Fault (Buffer userNameSize)) := do
  let answer ← ask .userName
  return loopUserName false answer

def startUp (build : Build) (answers : RakPeerAnswers) :
    Program Site Effect (Except Halt Setup) := do
  let userInput ← ask .role
  let isServer := userInput.head? = some 115 || userInput.head? = some 83
  let userInput ← ask .listenPort
  -- asked in both roles
  let port := toUnsignedShort (atoi (orDefault userInput (ascii "1234")))
  let started ← startSockets answers isServer port
  if !started then
    return .error (.exit 1)
  else if isServer then
    return .ok { isServer := true, userName := serverUserName }
  else
    match ← connectToServer build answers with
    | .error fault => return .error (.fault fault)
    | .ok () =>
        match ← askUserName with
        | .error fault => return .error (.fault fault)
        | .ok userName => return .ok { isServer := false, userName := userName }

/-- From the line in `message` to the Send. Neither array holds anything that
is still read: see `send_typed_holds`. -/
def sendLine (build : Build) (isServer : Bool) (serverAddress : SystemAddress)
    (userName : Buffer userNameSize) (line : List UInt8) : Except Fault Send := do
  let message ← getsInto (Buffer.init messageSize []) line
  sendTyped build isServer serverAddress userName (Buffer.init messageSize []) message

inductive Pass where
  | quit
  | continued
  | sent
  | faulted (fault : Fault)
  deriving DecidableEq

def handleLine (build : Build) (isServer : Bool) (userName : Buffer userNameSize)
    (serverAddress : SystemAddress) (message : List UInt8) : Program Site Effect Pass := do
  let result ← checkForCommands message
  if result = QUIT then
    return .quit
  else if result = CONTINUE then
    return .continued
  else
    match sendLine build isServer serverAddress userName message with
    | .error fault => return .faulted fault
    | .ok request =>
        perform (.send request)
        return .sent

/-- The part of one loop pass under `if (_kbhit())`. -/
def inputPass (build : Build) (isServer : Bool) (userName : Buffer userNameSize)
    (serverAddress : SystemAddress) : Program Site Effect Pass := do
  let message ← ask .message
  handleLine build isServer userName serverAddress message

/-- main on its terminal, for a number of passes through its loop. What
`g_serverAddress` holds in a pass is up to the packets received before. -/
def session (build : Build) (answers : RakPeerAnswers) (serverAddress : Nat → SystemAddress)
    (passes : Nat) : Program Site Effect Bool := do
  match ← startUp build answers with
  | .error _ => return false
  | .ok setup =>
      Program.loop (fun pass => do
        let result ← inputPass build setup.isServer setup.userName (serverAddress pass)
        return result = .continued || result = .sent) passes 0

/-- The lines `checkForCommands` does not let through as chat. -/
def isCommand (message : List UInt8) : Bool :=
  message = ascii "quit" || message = ascii "pingip" || message = ascii "getconnectionlist" ||
    message = ascii "ban"

theorem check_quit : checkForCommands (ascii "quit") =
    .act (.printf "Quitting.\n" []) (.done QUIT) := rfl

theorem check_pingip : checkForCommands (ascii "pingip") =
    .act (.printf "Enter IP: " []) (.gets .pingAddress fun host =>
      .act (.printf "Enter port: " []) (.gets .pingPort fun userInput =>
        .act (.ping host (toUnsignedShort (atoi (orDefault userInput (ascii "1234")))) false)
          (.done CONTINUE))) := rfl

theorem check_getconnectionlist : checkForCommands (ascii "getconnectionlist") =
    .act (.getConnectionList 10) (.done CONTINUE) := rfl

theorem check_ban : checkForCommands (ascii "ban") =
    .act (.printf "Enter IP to ban.  You can use * as a wildcard\n" []) (.gets .banAddress fun ip =>
      .act (.addToBanList ip)
        (.act (.printf "IP %s added to ban list.\n" [.text ip]) (.done CONTINUE))) := rfl

theorem check_chat (message : List UInt8) (chat : isCommand message = false) :
    checkForCommands message = .done 3 := by
  simp only [isCommand, Bool.or_eq_false_iff, decide_eq_false_iff_not] at chat
  simp only [checkForCommands, chat, ↓reduceIte]
  rfl

theorem command_cases (message : List UInt8) (command : isCommand message = true) :
    message = ascii "quit" ∨ message = ascii "pingip" ∨ message = ascii "getconnectionlist" ∨
      message = ascii "ban" := by
  simpa [isCommand, or_assoc] using command

section Framing

variable (build : Build) (answers : RakPeerAnswers) (serverAddress : Nat → SystemAddress)
  (passes : Nat)

/-- The session as it runs: nine bounded reads on one stream of bytes. -/
def charMarks (lines : List TypedLine) : List (Mark Site Effect) :=
  (run (charSource (getsSize build)) (session build answers serverAddress passes)
    (stream lines)).1

/-- The session as it is meant: each question is answered by one typed line. -/
def lineMarks (lines : List TypedLine) : List (Mark Site Effect) :=
  (run lineSource (session build answers serverAddress passes) lines).1

/-- The address banned or pinged is the whole line that was typed for it. -/
def TypedArgument (effect : Effect) (before : List (Mark Site Effect)) : Prop :=
  match effect with
  | .addToBanList ip =>
      ∃ earlier, before = earlier ++ [.read .banAddress ip (ip ++ [newline])]
  | .ping host _ _ =>
      ∃ earlier answer, before = earlier ++ [.read .pingAddress host (host ++ [newline]),
        .act (.printf "Enter port: " []), .read .pingPort answer (answer ++ [newline])]
  | _ => True

structure Framed (lines : List TypedLine) : Prop where
  lineByLine : charMarks build answers serverAddress passes lines =
    lineMarks build answers serverAddress passes lines
  inOrder : readTexts (charMarks build answers serverAddress passes lines) <+:
    lines.map TypedLine.text
  arguments : EachAct TypedArgument (charMarks build answers serverAddress passes lines)

theorem typed_argument_grows (effect : Effect) (earlier before : List (Mark Site Effect))
    (typed : TypedArgument effect before) : TypedArgument effect (earlier ++ before) := by
  cases effect with
  | addToBanList ip =>
      rcases typed with ⟨start, rfl⟩
      exact ⟨earlier ++ start, (List.append_assoc ..).symm⟩
  | ping host port flag =>
      rcases typed with ⟨start, answer, rfl⟩
      exact ⟨earlier ++ start, answer, (List.append_assoc ..).symm⟩
  | _ => trivial

theorem check_for_commands_arguments (message : List UInt8) (lines : List TypedLine) :
    EachAct TypedArgument (run lineSource (checkForCommands message) lines).1 := by
  by_cases command : isCommand message = true
  · rcases command_cases message command with rfl | rfl | rfl | rfl
    · simp [check_quit, run, TypedArgument]
    · rw [check_pingip]
      cases lines with
      | nil => simp [run, lineSource, TypedArgument]
      | cons host later =>
          cases later with
          | nil => simp [run, lineSource, TypedArgument]
          | cons port rest =>
              simp only [run, lineSource, each_act_act, each_act_read, each_act_nil, TypedArgument,
                true_and, and_true]
              exact ⟨[.act (.printf "Enter IP: " [])], port.text, rfl⟩
    · simp [check_getconnectionlist, run, TypedArgument]
    · rw [check_ban]
      cases lines with
      | nil => simp [run, lineSource, TypedArgument]
      | cons ip rest =>
          simp only [run, lineSource, each_act_act, each_act_read, each_act_nil, TypedArgument,
            true_and, and_true]
          exact ⟨[.act (.printf "Enter IP to ban.  You can use * as a wildcard\n" [])], rfl⟩
  · rw [check_chat message (by simpa using command)]
    simp [run]

def NoArgument (effect : Effect) : Prop := ∀ before, TypedArgument effect before

theorem start_sockets_no_argument (isServer : Bool) (port : Nat) :
    (startSockets answers isServer port).Performs NoArgument := by
  cases isServer <;> cases started : answers.raknetStarted 2 <;>
    simp [startSockets, started, bind, Program.bind, perform, pure, Program.Performs,
      NoArgument, TypedArgument]

theorem connect_to_server_no_argument :
    (connectToServer build answers).Performs NoArgument := by
  simp [connectToServer, bind, Program.bind, perform, ask, pure, Program.Performs,
      NoArgument, TypedArgument]

theorem start_up_no_argument :
    (startUp build answers).Performs NoArgument := by
  apply performs_bind (ask .role) _ (fun _ => trivial)
  intro role
  apply performs_bind (ask .listenPort) _ (fun _ => trivial)
  intro listenPort
  apply performs_bind
  · exact start_sockets_no_argument answers _ _
  · intro started
    cases started with
    | false => trivial
    | true =>
        simp only [Bool.not_true, Bool.false_eq_true, ↓reduceIte]
        split
        · trivial
        · apply performs_bind _ _ (connect_to_server_no_argument build answers)
          intro connected
          cases connected with
          | error fault => trivial
          | ok _ =>
              apply performs_bind askUserName _ (fun _ => trivial)
              intro userName
              cases userName <;> trivial

theorem input_pass_arguments (isServer : Bool) (userName : Buffer userNameSize)
    (destination : SystemAddress) (lines : List TypedLine) :
    EachAct TypedArgument
      (run lineSource (inputPass build isServer userName destination) lines).1 := by
  apply each_act_run_bind typed_argument_grows lineSource (ask Site.message)
  · exact each_act_of_performs lineSource (ask Site.message) (fun _ => trivial)
  · intro message lines
    apply each_act_run_bind typed_argument_grows lineSource (checkForCommands message)
    · exact check_for_commands_arguments message
    · intro result
      apply each_act_of_performs
      split
      · trivial
      · split
        · trivial
        · cases sendLine build isServer destination userName message with
          | error fault => trivial
          | ok request => exact ⟨fun _ => trivial, trivial⟩

theorem line_marks_arguments (lines : List TypedLine) :
    EachAct TypedArgument (lineMarks build answers serverAddress passes lines) := by
  apply each_act_run_bind typed_argument_grows lineSource (startUp build answers)
  · exact each_act_of_performs lineSource _ (start_up_no_argument build answers)
  · intro started
    cases started with
    | error halt => exact each_act_of_performs lineSource _ trivial
    | ok setup =>
        apply each_act_run_loop typed_argument_grows
        intro pass
        apply each_act_run_bind typed_argument_grows
        · exact input_pass_arguments build setup.isServer setup.userName (serverAddress pass)
        · exact fun result => each_act_of_performs lineSource _ trivial

/-- Where every line fits the array it is read into, only the two address
arguments of `checkForCommands` can be read with a smaller size. -/
theorem gets_size_fits_iff (marks : List (Mark Site Effect)) (roomy : Fits arraySize marks) :
    Fits (getsSize build) marks ↔
      ∀ site text consumed, .read site text consumed ∈ marks →
        site = .pingAddress ∨ site = .banAddress →
        text.length + 2 ≤ build.platform.sizeofPointer := by
  constructor
  · rintro fits site text consumed member (rfl | rfl)
    · exact fits _ member
    · exact fits _ member
  · intro short mark member
    have room := roomy mark member
    cases mark with
    | act request => trivial
    | read site text consumed =>
        cases site with
        | pingAddress => exact short _ text consumed member (Or.inl rfl)
        | banAddress => exact short _ text consumed member (Or.inr rfl)
        | _ => exact room

/-- Given lines that fit their arrays, the whole session is framed line by
line exactly when every address typed for 'pingip' or 'ban' fits a pointer. -/
theorem session_framed_iff (lines : List TypedLine)
    (roomy : Fits arraySize (lineMarks build answers serverAddress passes lines)) :
    Framed build answers serverAddress passes lines ↔
      ∀ site text consumed,
        .read site text consumed ∈ lineMarks build answers serverAddress passes lines →
        site = .pingAddress ∨ site = .banAddress →
        text.length + 2 ≤ build.platform.sizeofPointer := by
  have framed := framed_iff (getsSize build) (session build answers serverAddress passes) lines
  rw [← gets_size_fits_iff build _ roomy]
  constructor
  · intro session
    exact framed.mp session.lineByLine
  · intro fits
    have same : charMarks build answers serverAddress passes lines =
        lineMarks build answers serverAddress passes lines := framed.mpr fits
    constructor
    · exact same
    · rw [same]
      exact line_reads_in_order (session build answers serverAddress passes) lines
    · rw [same]
      exact line_marks_arguments build answers serverAddress passes lines

def banLines (ip : TypedLine) : List TypedLine :=
  [{ text := ascii "s" }, { text := [] }, { text := ascii "ban" }, ip]

def started : RakPeerAnswers :=
  { raknetStarted := fun _ => true, connectionAttemptStarted := true }

theorem short_address_framed :
    Framed { platform := .x64, debug := true } started (fun _ => .unassignedSystemAddress) 1
      (banLines { text := ascii "fe80::" }) :=
  (session_framed_iff _ started _ 1 _ (by decide)).mpr
    ((gets_size_fits_iff _ _ (by decide)).mp (by decide))

theorem ban_address_cut :
    Fits arraySize (lineMarks { platform := .x64, debug := true } started
        (fun _ => .unassignedSystemAddress) 1
        (banLines { text := ascii "10.0.0.7" })) ∧
      ¬ Framed { platform := .x64, debug := true } started (fun _ => .unassignedSystemAddress) 1
        (banLines { text := ascii "10.0.0.7" }) := by
  constructor
  · decide
  · intro framed
    exact absurd framed.lineByLine (by decide)

end Framing

end DrakNet
