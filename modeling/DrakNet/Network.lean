import DrakNet.Relay
import DrakNet.StarBroadcast

/-!
One server, any number of clients and RakNet between them. Each process takes
the steps of `step`; what it sends is put on the connections it reaches, and
each connection is one FIFO in either direction, every Send being
RELIABLE_ORDERED on channel 0. The network refines the star of `StarBroadcast`,
a member's offers being the lines its client typed once `g_serverAddress` was
known. Besides chat and the acceptance, RakPeer hands a process only
notifications that its switch names: others are displayed as text.
-/

namespace DrakNet

open CString DefaultMessageIDTypes StarBroadcast

structure Roster (ι : Type) where
  serverBuild : Build
  serverAddress : SystemAddress
  serverGuid : UInt64
  serverAssigned : serverAddress ≠ .unassignedSystemAddress := by decide
  build : ι → Build
  name : ι → ClientName
  address : ι → SystemAddress
  guid : ι → UInt64
  distinct : Function.Injective address
  assigned : ∀ i, address i ≠ .unassignedSystemAddress := by decide

/-- A client, its two queues, and what an observer writes down about it: all
payloads it composed, those of them composed before `g_serverAddress` was
known, all texts it displayed, and the length of the log when it joined. -/
structure Client where
  loop : LoopState
  phase : Phase
  uplink : List Packet
  downlink : List Packet
  composed : List (List UInt8)
  early : List (List UInt8)
  displayed : List (List UInt8)
  joined : Nat

/-- `log` is every payload the server has broadcast, with the client that
composed it; the server's own have none. -/
structure Network (ι : Type) where
  client : ι → Client
  server : LoopState
  log : List (Option ι × List UInt8)
  displayed : List (List UInt8)

/-- Whom RakPeer sends to: a broadcast leaves out the identifier, any other
Send goes to it alone. -/
def Send.reaches (request : Send) (system : SystemAddress) : Bool :=
  if request.broadcast then request.systemIdentifier ≠ system
  else request.systemIdentifier = system

variable {ι : Type} [DecidableEq ι]

section Steps

variable (roster : Roster ι)

def Roster.peer (i : ι) : Peer := clientPeer (roster.build i) (roster.name i)

def Roster.fromClient (i : ι) (request : Send) : Packet :=
  { systemAddress := roster.address i
    guid := roster.guid i
    data := request.data
    nonempty := request.nonempty }

def Roster.fromServer (request : Send) : Packet :=
  { systemAddress := roster.serverAddress
    guid := roster.serverGuid
    data := request.data
    nonempty := request.nonempty }

def Roster.acceptance : Packet :=
  { systemAddress := roster.serverAddress
    guid := roster.serverGuid
    data := [idConnectionRequestAccepted.messageID] }

def Client.reached (client : Client) (system : SystemAddress) (requests : List Send) : List Send :=
  if client.phase = .inside then requests.filter fun request => request.reaches system else []

def clientActs (i : ι) (client : Client) (event : LoopEvent) : Client :=
  let result := step (roster.peer i) client.loop event
  let requests := sends result.2
  { client with
    loop := result.1
    uplink := client.uplink ++
      (client.reached roster.serverAddress requests).map (roster.fromClient i)
    composed := client.composed ++ requests.map Send.data
    -- such a Send is addressed to nobody
    early := client.early ++
      if client.loop.serverAddress = .unassignedSystemAddress then requests.map Send.data else []
    displayed := client.displayed ++ displays result.2 }

def clientHears (i : ι) (client : Client) (requests : List Send) : Client :=
  { client with
    downlink := client.downlink ++
      (client.reached (roster.address i) requests).map roster.fromServer }

def serverActs (net : Network ι) (author : Option ι) (event : LoopEvent) : Network ι :=
  let result := step (serverPeer roster.serverBuild) net.server event
  let requests := sends result.2
  { client := fun i => clientHears roster i (net.client i) requests
    server := result.1
    log := net.log ++ requests.map fun request => (author, request.data)
    displayed := net.displayed ++ displays result.2 }

def Network.update (net : Network ι) (i : ι) (client : Client) : Network ι :=
  { net with client := Function.update net.client i client }

def namedNotification (packet : Packet) : Bool :=
  packetBranch packet ≠ none && packetBranch packet ≠ some .default

inductive NetworkEvent (ι : Type) where
  | clientTypes (i : ι)
  | clientReceives (i : ι)
  | clientNotified (i : ι) (packet : Packet)
  | serverTypes
  | serverReceives (i : ι)
  | serverNotified (packet : Packet)
  | joins (i : ι)
  | leaves (i : ι) (keptUp keptDown : Nat)

/-- A process calls `Connect` once, so a client that left stays away. A
connection that ends may lose what is still under way. Its notifications, like
all others but the acceptance, may arrive at any time. -/
def networkStep (net : Network ι) : NetworkEvent ι → Option (Network ι)
  | .clientTypes i => some (net.update i (clientActs roster i (net.client i) .kbhit))
  | .clientReceives i =>
      match (net.client i).downlink with
      | [] => none
      | packet :: rest =>
          if (net.client i).loop.status = .running then
            some (net.update i
              (clientActs roster i { net.client i with downlink := rest } (.receive packet)))
          else none
  | .clientNotified i packet =>
      if namedNotification packet ∧ packetBranch packet ≠ some .connectionRequestAccepted then
        some (net.update i (clientActs roster i (net.client i) (.receive packet)))
      else none
  | .serverTypes => some (serverActs roster net none .kbhit)
  | .serverReceives i =>
      match (net.client i).uplink with
      | [] => none
      | packet :: rest =>
          if net.server.status = .running then
            some (serverActs roster (net.update i { net.client i with uplink := rest }) (some i)
              (.receive packet))
          else none
  | .serverNotified packet =>
      if namedNotification packet then some (serverActs roster net none (.receive packet))
      else none
  | .joins i =>
      if (net.client i).phase = .outside then
        some (net.update i { net.client i with
          phase := .inside
          -- RakPeer announces the connection before any message on it
          downlink := (net.client i).downlink ++ [roster.acceptance]
          joined := net.log.length })
      else none
  | .leaves i keptUp keptDown =>
      if (net.client i).phase = .inside then
        some (net.update i { net.client i with
          phase := .gone
          uplink := (net.client i).uplink.take keptUp
          downlink := (net.client i).downlink.take keptDown })
      else none

def Moved (net : Network ι) (event : NetworkEvent ι) (after : Network ι) : Prop :=
  match event with
  | .clientTypes i => after = net.update i (clientActs roster i (net.client i) .kbhit)
  | .clientReceives i => ∃ packet rest, (net.client i).downlink = packet :: rest ∧
      (net.client i).loop.status = .running ∧
      after = net.update i
        (clientActs roster i { net.client i with downlink := rest } (.receive packet))
  | .clientNotified i packet => namedNotification packet = true ∧
      packetBranch packet ≠ some .connectionRequestAccepted ∧
      after = net.update i (clientActs roster i (net.client i) (.receive packet))
  | .serverTypes => after = serverActs roster net none .kbhit
  | .serverReceives i => ∃ packet rest, (net.client i).uplink = packet :: rest ∧
      net.server.status = .running ∧
      after = serverActs roster (net.update i { net.client i with uplink := rest }) (some i)
        (.receive packet)
  | .serverNotified packet => namedNotification packet = true ∧
      after = serverActs roster net none (.receive packet)
  | .joins i => (net.client i).phase = .outside ∧
      after = net.update i { net.client i with
        phase := .inside
        downlink := (net.client i).downlink ++ [roster.acceptance]
        joined := net.log.length }
  | .leaves i keptUp keptDown => (net.client i).phase = .inside ∧
      after = net.update i { net.client i with
        phase := .gone
        uplink := (net.client i).uplink.take keptUp
        downlink := (net.client i).downlink.take keptDown }

theorem network_step_moved (net : Network ι) (event : NetworkEvent ι) (after : Network ι)
    (taken : networkStep roster net event = some after) : Moved roster net event after := by
  cases event with
  | clientTypes i => exact (Option.some.inj taken).symm
  | serverTypes => exact (Option.some.inj taken).symm
  | clientReceives i =>
      cases queued : (net.client i).downlink with
      | nil => simp [networkStep, queued] at taken
      | cons packet rest =>
          simp only [networkStep, queued, Option.ite_none_right_eq_some, Option.some.injEq] at taken
          exact ⟨packet, rest, queued, taken.1, taken.2.symm⟩
  | serverReceives i =>
      cases queued : (net.client i).uplink with
      | nil => simp [networkStep, queued] at taken
      | cons packet rest =>
          simp only [networkStep, queued, Option.ite_none_right_eq_some, Option.some.injEq] at taken
          exact ⟨packet, rest, queued, taken.1, taken.2.symm⟩
  | clientNotified i packet =>
      simp only [networkStep, Option.ite_none_right_eq_some, Option.some.injEq] at taken
      exact ⟨taken.1.1, taken.1.2, taken.2.symm⟩
  | serverNotified packet =>
      simp only [networkStep, Option.ite_none_right_eq_some, Option.some.injEq] at taken
      exact ⟨taken.1, taken.2.symm⟩
  | joins i =>
      simp only [networkStep, Option.ite_none_right_eq_some, Option.some.injEq] at taken
      exact ⟨taken.1, taken.2.symm⟩
  | leaves i keptUp keptDown =>
      simp only [networkStep, Option.ite_none_right_eq_some, Option.some.injEq] at taken
      exact ⟨taken.1, taken.2.symm⟩

def Network.start (typed : ι → List UInt8) (typedAtServer : List UInt8) : Network ι :=
  { client := fun i =>
      { loop := loopEntry (typed i), phase := .outside, uplink := [], downlink := []
        composed := [], early := [], displayed := [], joined := 0 }
    server := loopEntry typedAtServer
    log := []
    displayed := [] }

end Steps

end DrakNet
