import DrakNet.CString

/-!
The part of RakNet's headers that main.cpp reads or passes on. RakPeer itself
is not here: what main asks of it is recorded as an `Effect`, and what it hands
to main arrives as a `Packet`.
-/

namespace DrakNet

open CString

/-- `DefaultMessageIDTypes` of MessageIdentifiers.h up to its last RakPeer
type. The plugin and user types that follow have larger values. -/
inductive DefaultMessageIDTypes where
  | idConnectedPing
  | idUnconnectedPing
  | idUnconnectedPingOpenConnections
  | idConnectedPong
  | idDetectLostConnections
  | idOpenConnectionRequest1
  | idOpenConnectionReply1
  | idOpenConnectionRequest2
  | idOpenConnectionReply2
  | idConnectionRequest
  | idRemoteSystemRequiresPublicKey
  | idOurSystemRequiresSecurity
  | idPublicKeyMismatch
  | idOutOfBandInternal
  | idSndReceiptAcked
  | idSndReceiptLoss
  | idConnectionRequestAccepted
  | idConnectionAttemptFailed
  | idAlreadyConnected
  | idNewIncomingConnection
  | idNoFreeIncomingConnections
  | idDisconnectionNotification
  | idConnectionLost
  | idConnectionBanned
  | idInvalidPassword
  | idIncompatibleProtocolVersion
  | idIpRecentlyConnected
  | idTimestamp
  | idUnconnectedPong
  | idAdvertiseSystem
  | idDownloadProgress
  deriving DecidableEq

/-- The enumerators are numbered from zero in the order of the header. -/
def DefaultMessageIDTypes.messageID (type : DefaultMessageIDTypes) : UInt8 :=
  UInt8.ofNat type.ctorIdx

inductive SystemAddress where
  | unassignedSystemAddress
  | assigned (ip : Nat) (port : UInt16)
  deriving DecidableEq

/-- `Receive` never hands out a packet without a first byte. -/
structure Packet where
  systemAddress : SystemAddress
  guid : UInt64
  data : List UInt8
  nonempty : data ≠ [] := by decide
  deriving DecidableEq

def Packet.length (packet : Packet) : Nat := packet.data.length

inductive PacketPriority where
  | immediatePriority
  | highPriority
  | mediumPriority
  | lowPriority
  deriving DecidableEq

inductive PacketReliability where
  | unreliable
  | unreliableSequenced
  | reliable
  | reliableOrdered
  | reliableSequenced
  | unreliableWithAckReceipt
  | reliableWithAckReceipt
  | reliableOrderedWithAckReceipt
  deriving DecidableEq

/-- One call of `RakPeerInterface::Send`; `data` is the block of `length`
bytes the call points at. -/
structure Send where
  data : List UInt8
  nonempty : data ≠ []
  priority : PacketPriority
  reliability : PacketReliability
  orderingChannel : Nat
  systemIdentifier : SystemAddress
  broadcast : Bool
  deriving DecidableEq

inductive Argument where
  | address (systemAddress : SystemAddress)
  | guid (guid : UInt64)
  | text (text : List UInt8)
  deriving DecidableEq

/-- What main does to the outside. `display` is `printf("%s\n", packet->data)`.
The answers to `getInternalIDs` and `getConnectionList` are only printed. -/
inductive Effect where
  | startup (maxConnections port socketDescriptorCount : Nat)
  | setMaximumIncomingConnections (numberAllowed : Nat)
  | connect (host : List UInt8) (remotePort : Nat)
  | ping (host : List UInt8) (remotePort : Nat) (onlyReplyOnAcceptingConnections : Bool)
  | addToBanList (ip : List UInt8)
  | getConnectionList (numberOfSystems : Nat)
  | getInternalIDs (systemAddress : SystemAddress) (count : Nat)
  | printf (format : String) (arguments : List Argument)
  | display (text : List UInt8)
  | send (request : Send)
  deriving DecidableEq

def Effect.sent : Effect → Option Send
  | .send request => some request
  | _ => none

def Effect.displayed : Effect → Option (List UInt8)
  | .display text => some text
  | _ => none

def sends (effects : List Effect) : List Send := effects.filterMap Effect.sent

def displays (effects : List Effect) : List (List UInt8) := effects.filterMap Effect.displayed

@[simp] theorem sends_append (first rest : List Effect) :
    sends (first ++ rest) = sends first ++ sends rest := by
  simp [sends]

@[simp] theorem sends_nil : sends [] = [] := rfl

@[simp] theorem displays_nil : displays [] = [] := rfl

@[simp] theorem sends_send (request : Send) (rest : List Effect) :
    sends (.send request :: rest) = request :: sends rest := rfl

@[simp] theorem displays_send (request : Send) (rest : List Effect) :
    displays (.send request :: rest) = displays rest := rfl

@[simp] theorem sends_display (text : List UInt8) (rest : List Effect) :
    sends (.display text :: rest) = sends rest := rfl

@[simp] theorem displays_display (text : List UInt8) (rest : List Effect) :
    displays (.display text :: rest) = text :: displays rest := rfl

/-- Win32 and x64 are the two platforms the project is built for. -/
inductive Platform where
  | win32
  | x64
  deriving DecidableEq

def Platform.sizeofPointer : Platform → Nat
  | .win32 => 4
  | .x64 => 8

/-- `_DEBUG` decides whether `RakAssert` is compiled in. -/
structure Build where
  platform : Platform
  debug : Bool
  deriving DecidableEq

def rakAssert (build : Build) (condition : Bool) : Except Fault Unit :=
  if build.debug && !condition then .error .assertFailed else .ok ()

end DrakNet
