import DrakNet.RakNet

/-!
The receive half of main: `getPacketIdentifier`, the switch on its result and
the body of every branch. A branch that would read or write outside an array
keeps the effects it had before and reports the fault. `Receivable` is the
exact condition under which handling a packet stays clear of one.
-/

namespace DrakNet

open CString DefaultMessageIDTypes

def sizeofMessageID : Nat := 1

/-- `RakNet::Time` is `uint64_t`: `__GET_TIME_64BIT` is 1. -/
def sizeofTime : Nat := 8

def byteAt (data : List UInt8) (index : Nat) : Except Fault UInt8 :=
  match data[index]? with
  | some byte => .ok byte
  | none => .error .readPast

def getPacketIdentifier (build : Build) : Option Packet → Except Fault UInt8
  | none => .ok 255
  | some p => do
      let first ← byteAt p.data 0
      if first = idTimestamp.messageID then
        -- without `RakAssert` the read below is all that is left
        rakAssert build (decide (p.length > sizeofMessageID + sizeofTime))
        byteAt p.data (sizeofMessageID + sizeofTime)
      else
        byteAt p.data 0

inductive Branch where
  | connectionRequestAccepted
  | disconnectionNotification
  | newIncomingConnection
  | incompatibleProtocolVersion
  | ping
  | connectionLost
  | default
  deriving DecidableEq

def switchBranch (packetIdentifier : UInt8) : Branch :=
  if packetIdentifier = idConnectionRequestAccepted.messageID then .connectionRequestAccepted
  else if packetIdentifier = idDisconnectionNotification.messageID then .disconnectionNotification
  else if packetIdentifier = idNewIncomingConnection.messageID then .newIncomingConnection
  else if packetIdentifier = idIncompatibleProtocolVersion.messageID then
    .incompatibleProtocolVersion
  -- two labels, one body
  else if packetIdentifier = idConnectedPing.messageID then .ping
  else if packetIdentifier = idUnconnectedPing.messageID then .ping
  else if packetIdentifier = idConnectionLost.messageID then .connectionLost
  else .default

def maximumNumberOfInternalIDs : Nat := 10

def messageSize : Nat := 2048

/-- The Send of a string in one of the 2048-byte arrays, terminator included:
HIGH_PRIORITY, RELIABLE_ORDERED and channel 0 at each of the three call sites. -/
def sendString (message : Buffer messageSize) (systemIdentifier : SystemAddress)
    (broadcast : Bool) : Except Fault Send := do
  let length ← strlen message.bytes
  return {
    data := message.bytes.take (length + 1)
    nonempty := by
      have filled := message.length_eq
      intro empty
      rcases List.take_eq_nil_iff.mp empty with none | nil
      · omega
      · simp [nil, messageSize] at filled
    priority := .highPriority
    reliability := .reliableOrdered
    orderingChannel := 0
    systemIdentifier := systemIdentifier
    broadcast := broadcast }

structure Handled where
  serverAddress : SystemAddress
  effects : List Effect
  fault : Option Fault
  deriving DecidableEq

/-- The default branch. `message` holds whatever the last line or packet left
in it. -/
def relay (isServer : Bool) (message : Buffer messageSize) (packet : Packet) :
    List Effect × Option Fault :=
  match readString packet.data with
  | .error fault => ([], some fault)
  | .ok text =>
      -- the printf has shown the text by the time sprintf can fail
      match sprintfString message packet.data with
      | .error fault => ([.display text], some fault)
      | .ok message =>
          if isServer then
            match sendString message packet.systemAddress true with
            | .error fault => ([.display text], some fault)
            | .ok request => ([.display text, .send request], none)
          else ([.display text], none)

def handleBranch (isServer : Bool) (message : Buffer messageSize)
    (serverAddress : SystemAddress) (packet : Packet) : Branch → Handled
  | .connectionRequestAccepted =>
      { serverAddress := if isServer then serverAddress else packet.systemAddress
        effects := [.printf "ID_CONNECTION_REQUEST_ACCEPTED\n\n" []]
        fault := none }
  | .disconnectionNotification =>
      { serverAddress := serverAddress
        effects := [.printf "ID_DISCONNECTION_NOTIFICATION from %s\n\n"
          [.address packet.systemAddress]]
        fault := none }
  | .newIncomingConnection =>
      { serverAddress := serverAddress
        effects := [.printf "ID_NEW_INCOMING_CONNECTION from %s with GUID %s\n"
            [.address packet.systemAddress, .guid packet.guid],
          .printf "Remote internal IDs:\n" [],
          .getInternalIDs packet.systemAddress maximumNumberOfInternalIDs]
        fault := none }
  | .incompatibleProtocolVersion =>
      { serverAddress := serverAddress
        effects := [.printf "ID_INCOMPATIBLE_PROTOCOL_VERSION\n" []]
        fault := none }
  | .ping =>
      { serverAddress := serverAddress
        effects := [.printf "Ping from %s\n" [.address packet.systemAddress]]
        fault := none }
  | .connectionLost =>
      { serverAddress := serverAddress
        effects := [.printf "ID_CONNECTION_LOST from %s\n" [.address packet.systemAddress]]
        fault := none }
  | .default =>
      let relayed := relay isServer message packet
      { serverAddress := serverAddress, effects := relayed.1, fault := relayed.2 }

def handlePacket (build : Build) (isServer : Bool) (message : Buffer messageSize)
    (serverAddress : SystemAddress) (packet : Packet) : Handled :=
  match getPacketIdentifier build (some packet) with
  | .error fault => { serverAddress := serverAddress, effects := [], fault := some fault }
  | .ok packetIdentifier =>
      handleBranch isServer message serverAddress packet (switchBranch packetIdentifier)

def identifierIndex (data : List UInt8) : Nat :=
  if data[0]? = some idTimestamp.messageID then sizeofMessageID + sizeofTime else 0

def packetBranch (packet : Packet) : Option Branch :=
  packet.data[identifierIndex packet.data]?.map switchBranch

/-- The identifier lies inside the packet, and a packet for the default branch
has a NUL among its first 2048 bytes. -/
def Receivable (packet : Packet) : Prop :=
  identifierIndex packet.data < packet.length ∧
    (packetBranch packet = some .default → 0 ∈ packet.data.take messageSize)

theorem byte_at_ok_iff (data : List UInt8) (index : Nat) (byte : UInt8) :
    byteAt data index = .ok byte ↔ data[index]? = some byte := by
  unfold byteAt
  cases data[index]? <;> simp

theorem packet_identifier_ok_iff (build : Build) (packet : Packet) (id : UInt8) :
    getPacketIdentifier build (some packet) = .ok id ↔
      packet.data[identifierIndex packet.data]? = some id := by
  rcases List.exists_cons_of_ne_nil packet.nonempty with ⟨first, rest, spelled⟩
  have head : byteAt packet.data 0 = .ok first := by simp [byteAt, spelled]
  have start : packet.data[0]? = some first := by simp [spelled]
  simp only [getPacketIdentifier, head, identifierIndex, start, Option.some.injEq, bind,
    Except.bind]
  by_cases stamped : first = idTimestamp.messageID
  -- where the assertion fails there is no byte at the index either
  · simp only [stamped, ↓reduceIte]
    cases asserted : rakAssert build
        (decide (packet.length > sizeofMessageID + sizeofTime)) with
    | ok _ => exact byte_at_ok_iff _ _ _
    | error fault =>
        have short : packet.data.length ≤ sizeofMessageID + sizeofTime := by
          by_contra long
          simp [rakAssert, Packet.length, Nat.lt_of_not_le long] at asserted
        simp [List.getElem?_eq_none short]
  · simp [stamped, start]

/-- The dispatch as its callers use it: a packet with an identifier takes the
branch of that identifier, any other packet ends in a fault. -/
theorem handle_packet_branch (build : Build) (isServer : Bool) (message : Buffer messageSize)
    (serverAddress : SystemAddress) (packet : Packet) (branch : Branch)
    (taken : packetBranch packet = some branch) :
    handlePacket build isServer message serverAddress packet =
      handleBranch isServer message serverAddress packet branch := by
  rcases Option.map_eq_some_iff.mp taken with ⟨id, found, rfl⟩
  simp only [handlePacket, (packet_identifier_ok_iff build packet id).mpr found]

theorem handle_packet_unidentified (build : Build) (isServer : Bool)
    (message : Buffer messageSize) (serverAddress : SystemAddress) (packet : Packet)
    (missing : packetBranch packet = none) :
    ∃ fault, handlePacket build isServer message serverAddress packet =
      { serverAddress := serverAddress, effects := [], fault := some fault } := by
  cases identifier : getPacketIdentifier build (some packet) with
  | error fault => exact ⟨fault, by simp only [handlePacket, identifier]⟩
  | ok id =>
      have found := (packet_identifier_ok_iff build packet id).mp identifier
      simp [packetBranch, found] at missing

/-- Apart from the default branch the switch sends and displays nothing, and
only an acceptance at a client changes `g_serverAddress`. -/
theorem named_branch_quiet (isServer : Bool) (message : Buffer messageSize)
    (serverAddress : SystemAddress) (packet : Packet) (branch : Branch)
    (named : branch ≠ .default) :
    sends (handleBranch isServer message serverAddress packet branch).effects = [] ∧
      displays (handleBranch isServer message serverAddress packet branch).effects = [] ∧
      (handleBranch isServer message serverAddress packet branch).fault = none := by
  cases branch with
  | default => exact absurd rfl named
  | _ => exact ⟨rfl, rfl, rfl⟩

theorem server_address_after (isServer : Bool) (message : Buffer messageSize)
    (serverAddress : SystemAddress) (packet : Packet) (branch : Branch) :
    (handleBranch isServer message serverAddress packet branch).serverAddress =
      if branch = .connectionRequestAccepted ∧ isServer = false then packet.systemAddress
      else serverAddress := by
  cases branch <;> cases isServer <;> rfl

def textSend (text : List UInt8) (systemIdentifier : SystemAddress) (broadcast : Bool) : Send :=
  { data := text ++ [0]
    nonempty := by simp
    priority := .highPriority
    reliability := .reliableOrdered
    orderingChannel := 0
    systemIdentifier := systemIdentifier
    broadcast := broadcast }

theorem send_string_holds {message : Buffer messageSize} {text : List UInt8}
    (holds : Holds message.bytes text) (systemIdentifier : SystemAddress) (broadcast : Bool) :
    sendString message systemIdentifier broadcast =
      .ok (textSend text systemIdentifier broadcast) := by
  simp only [sendString, strlen_holds holds, bind, Except.bind, pure, Except.pure, textSend,
    holds_take holds]

theorem relay_unterminated (isServer : Bool) (message : Buffer messageSize) (packet : Packet)
    (unterminated : 0 ∉ packet.data) :
    relay isServer message packet = ([], some .readPast) := by
  simp [relay, readString, unterminated]

/-- `%s` copies the text up to its terminator unchanged, so the server sends on
what it printed, to everyone but the system it came from. -/
theorem relay_fits (isServer : Bool) (message : Buffer messageSize) (packet : Packet)
    {text : List UInt8} (holds : Holds packet.data text) (fits : text.length < messageSize) :
    relay isServer message packet =
      (if isServer then [.display text, .send (textSend text packet.systemAddress true)]
        else [.display text], none) := by
  rcases strcpy_holds message holds fits with ⟨copied, stored, spelled⟩
  cases isServer <;>
    simp [relay, (read_string_ok_iff packet.data text).mpr holds, sprintfString, stored,
      send_string_holds spelled]

theorem relay_overflow (isServer : Bool) (message : Buffer messageSize) (packet : Packet)
    {text : List UInt8} (holds : Holds packet.data text) (past : ¬ text.length < messageSize) :
    relay isServer message packet = ([.display text], some .writePast) := by
  have overflow := strcpy_overflow message holds (by omega)
  simp [relay, (read_string_ok_iff packet.data text).mpr holds, sprintfString, overflow]

theorem relay_fault_iff (isServer : Bool) (message : Buffer messageSize) (packet : Packet) :
    (relay isServer message packet).2 = none ↔ 0 ∈ packet.data.take messageSize := by
  rw [nul_within_iff]
  by_cases terminated : 0 ∈ packet.data
  · have holds := holds_cstring packet.data terminated
    by_cases fits : (cstring packet.data).length < messageSize
    · simp [relay_fits isServer message packet holds fits, terminated, fits]
    · simp [relay_overflow isServer message packet holds fits, fits]
  · simp [relay_unterminated isServer message packet terminated, terminated]

theorem client_relays_nothing (build : Build) (message : Buffer messageSize)
    (serverAddress : SystemAddress) (packet : Packet) :
    sends (handlePacket build false message serverAddress packet).effects = [] := by
  cases taken : packetBranch packet with
  | none =>
      obtain ⟨fault, outcome⟩ :=
        handle_packet_unidentified build false message serverAddress packet taken
      simp [outcome, sends]
  | some branch =>
      rw [handle_packet_branch build false message serverAddress packet branch taken]
      by_cases chat : branch = .default
      · subst branch
        by_cases terminated : 0 ∈ packet.data
        · have holds := holds_cstring packet.data terminated
          by_cases fits : (cstring packet.data).length < messageSize
          · simp [handleBranch, relay_fits false message packet holds fits, sends, Effect.sent]
          · simp [handleBranch, relay_overflow false message packet holds fits, sends, Effect.sent]
        · simp [handleBranch, relay_unterminated false message packet terminated, sends]
      · exact (named_branch_quiet false message serverAddress packet branch chat).1

theorem identifier_inside_iff (packet : Packet) :
    identifierIndex packet.data < packet.length ↔ packetBranch packet ≠ none := by
  simp [packetBranch, Packet.length]

theorem handle_packet_fault_iff (build : Build) (isServer : Bool) (message : Buffer messageSize)
    (serverAddress : SystemAddress) (packet : Packet) :
    (handlePacket build isServer message serverAddress packet).fault = none ↔
      Receivable packet := by
  rw [Receivable, identifier_inside_iff]
  cases taken : packetBranch packet with
  | none =>
      obtain ⟨fault, outcome⟩ :=
        handle_packet_unidentified build isServer message serverAddress packet taken
      simp [outcome]
  | some branch =>
      rw [handle_packet_branch build isServer message serverAddress packet branch taken]
      by_cases chat : branch = .default
      · subst branch
        simpa [handleBranch] using relay_fault_iff isServer message packet
      · have quiet := named_branch_quiet isServer message serverAddress packet branch chat
        simp [quiet, chat]

/-! A message may be sent behind `ID_TIMESTAMP` and a `RakNet::Time`. The
identifier of such a packet is read behind the stamp, everything else from the
first byte on. -/
section TimeStamped

structure PlainMessage where
  bytes : List UInt8
  terminated : bytes.getLast? = some 0 := by decide
  plain : bytes.head? ≠ some idTimestamp.messageID := by decide

theorem PlainMessage.nonempty (m : PlainMessage) : m.bytes ≠ [] := by
  intro empty
  have terminated := m.terminated
  simp [empty] at terminated

def plainPacket (systemAddress : SystemAddress) (guid : UInt64) (m : PlainMessage) : Packet :=
  { systemAddress := systemAddress, guid := guid, data := m.bytes, nonempty := m.nonempty }

def stampedPacket (systemAddress : SystemAddress) (guid : UInt64) (time : Buffer sizeofTime)
    (m : PlainMessage) : Packet :=
  { systemAddress := systemAddress
    guid := guid
    data := idTimestamp.messageID :: (time.bytes ++ m.bytes)
    nonempty := by simp }

def shownByClient (build : Build) (message : Buffer messageSize) (serverAddress : SystemAddress)
    (guid : UInt64) (request : Send) : List (List UInt8) :=
  displays (handlePacket build false message serverAddress
    { systemAddress := serverAddress, guid := guid, data := request.data
      nonempty := request.nonempty }).effects

structure HandledAlike (build : Build) (isServer : Bool) (message : Buffer messageSize)
    (serverAddress : SystemAddress) (left right : Packet) : Prop where
  branch : packetBranch left = packetBranch right
  address : (handlePacket build isServer message serverAddress left).serverAddress =
    (handlePacket build isServer message serverAddress right).serverAddress
  displayed : displays (handlePacket build isServer message serverAddress left).effects =
    displays (handlePacket build isServer message serverAddress right).effects
  relayed : ∀ (client : Build) (held : Buffer messageSize) (address : SystemAddress) (guid : UInt64),
    (sends (handlePacket build isServer message serverAddress left).effects).map
      (fun request => (request.systemIdentifier, request.broadcast,
        shownByClient client held address guid request)) =
    (sends (handlePacket build isServer message serverAddress right).effects).map
      (fun request => (request.systemIdentifier, request.broadcast,
        shownByClient client held address guid request))

theorem plain_branch (systemAddress : SystemAddress) (guid : UInt64) (m : PlainMessage) :
    packetBranch (plainPacket systemAddress guid m) =
      some (switchBranch (m.bytes.head m.nonempty)) := by
  rcases List.exists_cons_of_ne_nil m.nonempty with ⟨first, rest, spelled⟩
  have plain := m.plain
  simp only [spelled, List.head?_cons, ne_eq, Option.some.injEq] at plain
  simp [packetBranch, plainPacket, identifierIndex, spelled, plain]

theorem stamped_branch (systemAddress : SystemAddress) (guid : UInt64) (time : Buffer sizeofTime)
    (m : PlainMessage) :
    packetBranch (stampedPacket systemAddress guid time m) =
      some (switchBranch (m.bytes.head m.nonempty)) := by
  rcases List.exists_cons_of_ne_nil m.nonempty with ⟨first, rest, spelled⟩
  have behind : (time.bytes ++ m.bytes)[sizeofTime]? = some first := by
    rw [List.getElem?_append_right (Nat.le_of_eq time.length_eq)]
    simp [time.length_eq, spelled]
  have index : sizeofMessageID + sizeofTime = sizeofTime + 1 := rfl
  simp only [packetBranch, stampedPacket, identifierIndex, List.getElem?_cons_zero, ↓reduceIte,
    index, List.getElem?_cons_succ, behind, Option.map_some]
  simp only [spelled, List.head_cons]

theorem default_displays_head (build : Build) (isServer : Bool) (message : Buffer messageSize)
    (serverAddress : SystemAddress) (packet : Packet)
    (chat : packetBranch packet = some .default) (terminated : 0 ∈ packet.data) :
    displays (handlePacket build isServer message serverAddress packet).effects =
      [cstring packet.data] := by
  have holds := holds_cstring packet.data terminated
  rw [handle_packet_branch build isServer message serverAddress packet .default chat]
  by_cases fits : (cstring packet.data).length < messageSize
  · simp only [handleBranch, relay_fits isServer message packet holds fits]
    cases isServer <;> rfl
  · simp only [handleBranch, relay_overflow isServer message packet holds fits]
    rfl

/-- The default branch prints the packet from its first byte, so with a stamp
in front the text it shows is another one. -/
theorem stamped_default_differs (build : Build) (isServer : Bool)
    (message : Buffer messageSize) (serverAddress systemAddress : SystemAddress) (guid : UInt64)
    (time : Buffer sizeofTime) (m : PlainMessage)
    (chat : switchBranch (m.bytes.head m.nonempty) = .default) :
    ¬ HandledAlike build isServer message serverAddress
        (stampedPacket systemAddress guid time m) (plainPacket systemAddress guid m) := by
  intro alike
  have stamped := stamped_branch systemAddress guid time m
  have plain := plain_branch systemAddress guid m
  rw [chat] at stamped plain
  have ending : (0 : UInt8) ∈ m.bytes := List.mem_of_getLast? m.terminated
  have displayed := alike.displayed
  rw [default_displays_head build isServer message serverAddress _ stamped
      (by simp [stampedPacket, ending]),
    default_displays_head build isServer message serverAddress _ plain ending] at displayed
  rcases List.exists_cons_of_ne_nil m.nonempty with ⟨first, rest, spelled⟩
  have unstamped := m.plain
  simp only [spelled, List.head?_cons, ne_eq, Option.some.injEq] at unstamped
  -- the text now starts with the stamp's id, which m's own text does not
  have stampByte : idTimestamp.messageID ≠ 0 := by decide
  by_cases silent : first = 0
  · simp [stampedPacket, plainPacket, spelled, cstring, stampByte, silent] at displayed
  · simp [stampedPacket, plainPacket, spelled, cstring, stampByte, silent] at displayed
    exact unstamped displayed.1.symm

/-- The stamped form of a message is handled like the plain one exactly when
the message is not meant for the default branch. -/
theorem stamped_handled_alike_iff (build : Build) (isServer : Bool)
    (message : Buffer messageSize) (serverAddress systemAddress : SystemAddress) (guid : UInt64)
    (time : Buffer sizeofTime) (m : PlainMessage) :
    HandledAlike build isServer message serverAddress
        (stampedPacket systemAddress guid time m) (plainPacket systemAddress guid m) ↔
      switchBranch (m.bytes.head m.nonempty) ≠ .default := by
  constructor
  · intro alike chat
    exact stamped_default_differs build isServer message serverAddress systemAddress guid time m
      chat alike
  · intro named
    have left := handle_packet_branch build isServer message serverAddress _ _
      (stamped_branch systemAddress guid time m)
    have right := handle_packet_branch build isServer message serverAddress _ _
      (plain_branch systemAddress guid m)
    have leftQuiet := named_branch_quiet isServer message serverAddress
      (stampedPacket systemAddress guid time m) _ named
    have rightQuiet := named_branch_quiet isServer message serverAddress
      (plainPacket systemAddress guid m) _ named
    constructor
    · rw [stamped_branch, plain_branch]
    · rw [left, right, server_address_after, server_address_after]
      rfl
    · rw [left, right, leftQuiet.2.1, rightQuiet.2.1]
    · intro client held address guid
      rw [left, right, leftQuiet.1, rightQuiet.1]

theorem stamped_chat_lost :
    ¬ HandledAlike { platform := .x64, debug := true } true (Buffer.init messageSize [])
      .unassignedSystemAddress
      (stampedPacket (.assigned 2130706433 50000) 1 (Buffer.init sizeofTime [])
        { bytes := ascii "[A] : hi" ++ [0] })
      (plainPacket (.assigned 2130706433 50000) 1
        { bytes := ascii "[A] : hi" ++ [0] }) :=
  stamped_default_differs _ _ _ _ _ _ _ _ (by decide)

end TimeStamped

end DrakNet
