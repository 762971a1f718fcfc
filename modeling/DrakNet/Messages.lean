import DrakNet.Packets

/-!
The compose half of main: the name a client puts before its messages, and the
message that a typed line becomes. Four fixed arrays take part, `userName` and
`temp` of 30 bytes, `message` and `message2` of 2048.
-/

namespace DrakNet

open CString

def userNameSize : Nat := 30

structure ArrayText (size : Nat) where
  text : List UInt8
  nulFree : 0 ∉ text := by decide
  fits : text.length < size := by decide

def getsInto {size : Nat} (dst : Buffer size) (text : List UInt8) : Except Fault (Buffer size) :=
  store dst 0 (text ++ [0])

def serverUserName : Buffer userNameSize := Buffer.init userNameSize (ascii "[Server] : ")

def prefixUserName (userName : Buffer userNameSize) : Except Fault (Buffer userNameSize) := do
  -- `= { '[' }` leaves a terminator behind the bracket
  let temp := Buffer.init userNameSize (ascii "[")
  let temp ← strcat temp userName.bytes
  let temp ← strcat temp (ascii "] : " ++ [0])
  strcpy userName temp.bytes

/-- `userName` when the loop starts; `answer` is what a client typed for it. -/
def loopUserName (isServer : Bool) (answer : List UInt8) : Except Fault (Buffer userNameSize) := do
  if isServer then
    return serverUserName
  else
    let userName ← getsInto serverUserName answer
    prefixUserName userName

def sizeBits (build : Build) : Nat := 8 * build.platform.sizeofPointer

/-- `sizeof(message2) - strlen(userName) - 1`, on `size_t`. -/
def appendBound (build : Build) (nameLength : Nat) : Nat :=
  unsignedSub (sizeBits build) (unsignedSub (sizeBits build) messageSize nameLength) 1

def composeMessage (build : Build) (message2 : Buffer messageSize)
    (userName : Buffer userNameSize) (message : Buffer messageSize) :
    Except Fault (Buffer messageSize) := do
  let message2 ← store message2 0 [0]
  let message2 ← strncpy message2 userName.bytes messageSize
  let nameLength ← strlen userName.bytes
  strncat message2 message.bytes (appendBound build nameLength)

/-- From the composed line to the Send: a server broadcasts and excludes
nobody, a client sends to `g_serverAddress`. -/
def sendTyped (build : Build) (isServer : Bool) (serverAddress : SystemAddress)
    (userName : Buffer userNameSize) (message2 message : Buffer messageSize) :
    Except Fault Send := do
  let message2 ← composeMessage build message2 userName message
  if isServer then
    sendString message2 .unassignedSystemAddress true
  else
    sendString message2 serverAddress false

def bracketed (name : List UInt8) : List UInt8 :=
  ascii "[" ++ name ++ ascii "] : "

def chatText (userName line : List UInt8) : List UInt8 :=
  (userName ++ line).take (messageSize - 1)

theorem gets_into_holds {size : Nat} (dst : Buffer size) (text : List UInt8)
    (nulFree : 0 ∉ text) (fits : text.length < size) :
    ∃ buffer, getsInto dst text = .ok buffer ∧ Holds buffer.bytes text := by
  have stored := store_holds dst [] text rfl (by simp) nulFree (by simp; omega)
  simpa [getsInto] using stored

theorem server_user_name_holds : Holds serverUserName.bytes (ascii "[Server] : ") := by
  rw [holds_iff]
  decide

theorem bracket_holds : Holds (Buffer.init userNameSize (ascii "[")).bytes (ascii "[") := by
  rw [holds_iff]
  decide

theorem closing_holds : Holds (ascii "] : " ++ [0]) (ascii "] : ") :=
  holds_terminated _ (by decide)

theorem opening_length : (ascii "[").length = 1 := rfl

theorem closing_length : (ascii "] : ").length = 4 := rfl

theorem bracketed_length (name : List UInt8) : (bracketed name).length = name.length + 5 := by
  simp only [bracketed, List.length_append, opening_length, closing_length]
  omega

theorem prefix_user_name_holds (userName : Buffer userNameSize) {name : List UInt8}
    (holds : Holds userName.bytes name) (fits : name.length ≤ 24) :
    ∃ prefixed, prefixUserName userName = .ok prefixed ∧
      Holds prefixed.bytes (bracketed name) := by
  have total := bracketed_length name
  have size : userNameSize = 30 := rfl
  obtain ⟨opened, first, openedHolds⟩ :=
    strcat_holds _ bracket_holds holds (by rw [opening_length]; omega)
  obtain ⟨closed, second, closedHolds⟩ := strcat_holds opened openedHolds closing_holds (by
    rw [bracketed, List.length_append] at total
    omega)
  obtain ⟨prefixed, third, prefixedHolds⟩ := strcpy_holds userName closedHolds (by
    rw [bracketed] at total
    omega)
  exact ⟨prefixed, by simp [prefixUserName, first, second, third, bind, Except.bind],
    prefixedHolds⟩

/-- From 25 characters on one of the two `strcat` calls writes past `temp`. -/
theorem prefix_user_name_overflow (userName : Buffer userNameSize) {name : List UInt8}
    (holds : Holds userName.bytes name) (long : 24 < name.length) :
    prefixUserName userName = .error .writePast := by
  have opening := opening_length
  have closing := closing_length
  have size : userNameSize = 30 := rfl
  -- up to 28 characters the name still fits, and the closing bracket does not
  by_cases first : (ascii "[").length + name.length + 1 ≤ userNameSize
  · rcases strcat_holds _ bracket_holds holds first with ⟨opened, stored, openedHolds⟩
    have overflow := strcat_overflow opened openedHolds closing_holds (by
      rw [List.length_append]
      omega)
    simp [prefixUserName, stored, overflow, bind, Except.bind]
  · have overflow := strcat_overflow _ bracket_holds holds (Nat.lt_of_not_le first)
    simp [prefixUserName, overflow, bind, Except.bind]

theorem loop_user_name_bracketed (answer : List UInt8) (userName : Buffer userNameSize)
    (named : loopUserName false answer = .ok userName) :
    0 ∈ userName.bytes ∧ userName.bytes.head? = some 91 := by
  cases read : getsInto serverUserName answer with
  | error fault => simp [loopUserName, read, bind, Except.bind] at named
  | ok typed =>
      have holds := holds_cstring typed.bytes (stored_terminated _ _ _ _ read)
      by_cases fits : (cstring typed.bytes).length ≤ 24
      · rcases prefix_user_name_holds typed holds fits with ⟨prefixed, built, spelled⟩
        have same : prefixed = userName := by
          simpa [loopUserName, read, built, bind, Except.bind] using named
        rcases spelled with ⟨_, rest, bytes⟩
        rw [← same, bytes]
        exact ⟨by simp, rfl⟩
      · have overflow := prefix_user_name_overflow typed holds (Nat.lt_of_not_le fits)
        simp [loopUserName, read, overflow, bind, Except.bind] at named

theorem message_size_bound (build : Build) : messageSize < 2 ^ sizeBits build := by
  unfold sizeBits
  cases build.platform <;> decide

theorem append_bound_exact (build : Build) (nameLength : Nat)
    (short : nameLength < userNameSize) :
    appendBound build nameLength = messageSize - nameLength - 1 := by
  have wide := message_size_bound build
  have size : messageSize = 2048 := rfl
  have nameSize : userNameSize = 30 := rfl
  -- neither subtraction wraps: the name is shorter than its array
  rw [appendBound, unsigned_sub_exact (by omega) wide,
    unsigned_sub_exact (by omega) (by omega)]

theorem compose_message_holds (build : Build) (message2 : Buffer messageSize)
    (userName : Buffer userNameSize) (message : Buffer messageSize) {name line : List UInt8}
    (nameHolds : Holds userName.bytes name) (lineHolds : Holds message.bytes line) :
    ∃ composed, composeMessage build message2 userName message = .ok composed ∧
      Holds composed.bytes (chatText name line) := by
  have size : messageSize = 2048 := rfl
  have nameSize : userNameSize = 30 := rfl
  have short : name.length < userNameSize := buffer_text_lt userName nameHolds
  rcases store_ok message2 0 [0] (by simp [size]) with ⟨cleared, first, _⟩
  obtain ⟨named, second, namedHolds⟩ :=
    strncpy_holds cleared nameHolds (by omega) (Nat.le_refl messageSize)
  have bound := append_bound_exact build name.length short
  have room : name.length + (line.take (appendBound build name.length)).length + 1 ≤
      messageSize := by
    rw [List.length_take]
    omega
  rcases strncat_holds named namedHolds lineHolds room with ⟨composed, third, composedHolds⟩
  -- what strncat keeps of the line is what the first 2047 bytes of both keep
  have cut : name ++ line.take (appendBound build name.length) = chatText name line := by
    have whole : name.take (messageSize - 1) = name := List.take_of_length_le (by omega)
    have left : messageSize - name.length - 1 = messageSize - 1 - name.length := by omega
    rw [chatText, List.take_append, whole, bound, left]
  refine ⟨composed, ?_, cut ▸ composedHolds⟩
  simp [composeMessage, first, second, strlen_holds nameHolds, third, bind, Except.bind]

theorem send_typed_holds (build : Build) (isServer : Bool) (serverAddress : SystemAddress)
    (userName : Buffer userNameSize) (message2 message : Buffer messageSize)
    {name line : List UInt8} (nameHolds : Holds userName.bytes name)
    (lineHolds : Holds message.bytes line) :
    sendTyped build isServer serverAddress userName message2 message =
      .ok (if isServer then textSend (chatText name line) .unassignedSystemAddress true
        else textSend (chatText name line) serverAddress false) := by
  obtain ⟨composed, stored, spelled⟩ :=
    compose_message_holds build message2 userName message nameHolds lineHolds
  cases isServer <;> simp [sendTyped, stored, send_string_holds spelled, bind, Except.bind]

section Composition

def intendedUserName (isServer : Bool) (answer : List UInt8) : List UInt8 :=
  if isServer then ascii "[Server] : " else bracketed answer

/-- A composition that stays inside its arrays and yields the intended bytes,
from the answer to the name prompt to the Send of one line. -/
structure Composition (build : Build) (isServer : Bool) (serverAddress : SystemAddress)
    (message2 held : Buffer messageSize) (answer : ArrayText userNameSize)
    (line : ArrayText messageSize) where
  userName : Buffer userNameSize
  message : Buffer messageSize
  composed : Buffer messageSize
  request : Send
  named : loopUserName isServer answer.text = .ok userName
  nameSpelled : Holds userName.bytes (intendedUserName isServer answer.text)
  boundExact : (appendBound build (intendedUserName isServer answer.text).length : Int) =
    messageSize - (intendedUserName isServer answer.text).length - 1
  typed : getsInto held line.text = .ok message
  stored : composeMessage build message2 userName message = .ok composed
  messageSpelled : Holds composed.bytes
    (chatText (intendedUserName isServer answer.text) line.text)
  sent : sendTyped build isServer serverAddress userName message2 message = .ok request
  data : request.data = chatText (intendedUserName isServer answer.text) line.text ++ [0]

variable (build : Build) (isServer : Bool) (serverAddress : SystemAddress)
  (message2 held : Buffer messageSize) (answer : ArrayText userNameSize)
  (line : ArrayText messageSize)

theorem composition_of_user_name (userName : Buffer userNameSize)
    (named : loopUserName isServer answer.text = .ok userName)
    (spelled : Holds userName.bytes (intendedUserName isServer answer.text)) :
    Nonempty (Composition build isServer serverAddress message2 held answer line) := by
  have short : (intendedUserName isServer answer.text).length < userNameSize :=
    buffer_text_lt userName spelled
  have size : messageSize = 2048 := rfl
  have nameSize : userNameSize = 30 := rfl
  obtain ⟨message, typed, messageHolds⟩ :=
    gets_into_holds held line.text line.nulFree line.fits
  obtain ⟨composed, stored, composedHolds⟩ :=
    compose_message_holds build message2 userName message spelled messageHolds
  have sent := send_typed_holds build isServer serverAddress userName message2 message spelled
    messageHolds
  exact ⟨{
    userName := userName
    message := message
    composed := composed
    request := _
    named := named
    nameSpelled := spelled
    boundExact := by
      rw [append_bound_exact build _ short]
      omega
    typed := typed
    stored := stored
    messageSpelled := composedHolds
    sent := sent
    data := by cases isServer <;> rfl }⟩

theorem long_name_not_composed (long : 24 < answer.text.length) :
    ¬ Nonempty (Composition build false serverAddress message2 held answer line) := by
  rintro ⟨composition⟩
  have named := composition.named
  obtain ⟨typed, read, typedHolds⟩ :=
    gets_into_holds serverUserName answer.text answer.nulFree answer.fits
  have overflow := prefix_user_name_overflow typed typedHolds long
  simp [loopUserName, read, overflow, bind, Except.bind] at named

/-- Composing stays inside the four arrays and yields the intended bytes for
the server always, for a client exactly when its name has at most 24
characters. -/
theorem composition_iff :
    Nonempty (Composition build isServer serverAddress message2 held answer line) ↔
      isServer = true ∨ answer.text.length ≤ 24 := by
  constructor
  · rintro ⟨composition⟩
    cases isServer with
    | true => exact Or.inl rfl
    | false =>
        right
        by_contra long
        have none := long_name_not_composed build serverAddress message2 held answer line
          (Nat.lt_of_not_le long)
        exact none ⟨composition⟩
  · intro short
    cases isServer with
    | true =>
        exact composition_of_user_name build true serverAddress message2 held answer line
          serverUserName rfl server_user_name_holds
    | false =>
        have fits : answer.text.length ≤ 24 := by simpa using short
        obtain ⟨typed, read, typedHolds⟩ :=
          gets_into_holds serverUserName answer.text answer.nulFree answer.fits
        rcases prefix_user_name_holds typed typedHolds fits with ⟨prefixed, built, prefixedHolds⟩
        apply composition_of_user_name build false serverAddress message2 held answer line prefixed
        · simp [loopUserName, read, built, bind, Except.bind]
        · exact prefixedHolds

theorem name_of_25_overflows :
    ¬ Nonempty (Composition { platform := .x64, debug := true } false .unassignedSystemAddress
      (Buffer.init messageSize []) (Buffer.init messageSize [])
      { text := List.replicate 25 97 } { text := ascii "hi" }) :=
  long_name_not_composed _ _ _ _ _ _ (by decide)

end Composition

end DrakNet
