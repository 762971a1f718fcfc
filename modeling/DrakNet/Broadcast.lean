import DrakNet.Network

/-!
The chat as a broadcast. `Refines` relates a network to a star: its queues hold
chat packets only, apart from the acceptance a client finds first, and the
payloads in them are the star's messages. Each step of the network is one step
of the star or none, so the star's invariant holds of every network reached.
-/

namespace DrakNet

open CString Dialogue DefaultMessageIDTypes StarBroadcast

structure ChatPacket (sender : SystemAddress) (packet : Packet) : Prop where
  address : packet.systemAddress = sender
  spelled : ∃ text, ChatText text ∧ packet.data = terminated text

def isChat (packet : Packet) : Bool := packetBranch packet = some .default

theorem server_text (line : List UInt8) (nulFree : 0 ∉ line) :
    ChatText (chatText (cstring serverUserName.bytes) line) :=
  chat_text _ _ (cstring_nul_free _) nulFree (by decide)

theorem chat_packet_branch {sender : SystemAddress} {packet : Packet}
    (chat : ChatPacket sender packet) : packetBranch packet = some .default := by
  obtain ⟨text, sound, spelled⟩ := chat.spelled
  exact (bracketed_branch packet (chat_head sound spelled)).2

/-- A chat packet is displayed as the text it carries, and a server sends that
text on as it is: `%s` and `strlen` both stop at its own terminator. -/
theorem receive_chat (peer : Peer) (state : LoopState) (packet : Packet) {sender : SystemAddress}
    (chat : ChatPacket sender packet) (text : List UInt8) (sound : ChatText text)
    (spelled : packet.data = terminated text) (running : state.status = .running) :
    receive peer state packet = (state,
      if peer.isServer then [.display text, .send (textSend text sender true)]
      else [.display text]) := by
  have holds : Holds packet.data text := ⟨sound.nulFree, [], spelled⟩
  rw [receive_default peer state packet (chat_packet_branch chat) holds sound.fits running,
    chat.address]

variable {ι : Type} (roster : Roster ι)

structure ClientRefines (i : ι) (client : Client) (member : Member (List UInt8)) : Prop where
  phase : member.phase = client.phase
  joined : member.joined = client.joined
  offered : client.composed = client.early ++ member.offered
  up : member.up = client.uplink.map Packet.data
  down : member.down = (client.downlink.filter isChat).map Packet.data
  shown : member.shown = client.displayed.map terminated
  uplinkChat : ∀ packet ∈ client.uplink, ChatPacket (roster.address i) packet
  downlinkChat : ∀ packet ∈ client.downlink,
    packet = roster.acceptance ∨ ChatPacket roster.serverAddress packet
  address : (client.loop.serverAddress = .unassignedSystemAddress ∧ member.offered = []) ∨
    client.loop.serverAddress = roster.serverAddress
  admitted : member.phase = .outside →
    client.loop.serverAddress = .unassignedSystemAddress ∧ client.downlink = []
  unfaulted : ¬ Faulted client.loop

structure Refines (net : Network ι) (star : State ι (List UInt8)) : Prop where
  clients : ∀ i, ClientRefines roster i (net.client i) (star.member i)
  log : star.log = net.log
  hub : star.hubShown = net.displayed.map terminated
  unfaulted : ¬ Faulted net.server

section Clients

variable {roster} {i : ι} {client : Client} {member : Member (List UInt8)}

theorem acceptance_branch : packetBranch roster.acceptance = some .connectionRequestAccepted := by
  simp only [packetBranch, Roster.acceptance]
  decide

theorem client_acts_silent (client : Client) (event : LoopEvent)
    (silent : sends (step (roster.peer i) client.loop event).2 = [])
    (hidden : displays (step (roster.peer i) client.loop event).2 = []) :
    clientActs roster i client event =
      { client with loop := (step (roster.peer i) client.loop event).1 } := by
  simp [clientActs, silent, hidden, Client.reached]

theorem ClientRefines.quiet (refines : ClientRefines roster i client member) (loop : LoopState)
    (address : loop.serverAddress = client.loop.serverAddress) (unfaulted : ¬ Faulted loop) :
    ClientRefines roster i { client with loop := loop } member := by
  constructor
  · exact refines.phase
  · exact refines.joined
  · exact refines.offered
  · exact refines.up
  · exact refines.down
  · exact refines.shown
  · exact refines.uplinkChat
  · exact refines.downlinkChat
  · rw [address]
    exact refines.address
  · rw [address]
    exact refines.admitted
  · exact unfaulted

def Roster.typedText (roster : Roster ι) (i : ι) (loop : LoopState) : List UInt8 :=
  chatText (cstring (roster.name i).buffer.bytes) (nextLine loop.stdin)

theorem client_acts_typed (running : client.loop.status = .running)
    (chat : TypesChat client.loop) :
    clientActs roster i client .kbhit = { client with
      loop := { client.loop with stdin := (gets messageSize client.loop.stdin).rest }
      uplink := client.uplink ++ (client.reached roster.serverAddress
        [textSend (roster.typedText i client.loop) client.loop.serverAddress false]).map
          (roster.fromClient i)
      composed := client.composed ++ [terminated (roster.typedText i client.loop)]
      early := client.early ++ if client.loop.serverAddress = .unassignedSystemAddress
        then [terminated (roster.typedText i client.loop)] else [] } := by
  have taken : step (roster.peer i) client.loop .kbhit =
      ({ client.loop with stdin := (gets messageSize client.loop.stdin).rest },
        [.send (textSend (roster.typedText i client.loop) client.loop.serverAddress false)]) := by
    simp only [step, running, ↓reduceIte, chat_pass (roster.peer i) client.loop chat]
    rfl
  simp only [clientActs, taken, sends_send, sends_nil, displays_send, displays_nil, List.map_cons,
    List.map_nil, List.append_nil]
  rfl

theorem ClientRefines.unaddressed (refines : ClientRefines roster i client member)
    (running : client.loop.status = .running) (chat : TypesChat client.loop)
    (early : client.loop.serverAddress = .unassignedSystemAddress) (nothing : member.offered = []) :
    ClientRefines roster i (clientActs roster i client .kbhit) member := by
  have composed := refines.offered
  rw [nothing, List.append_nil] at composed
  have lost : client.reached roster.serverAddress
      [textSend (roster.typedText i client.loop) .unassignedSystemAddress false] = [] := by
    have elsewhere := roster.serverAssigned.symm
    simp [Client.reached, Send.reaches, textSend, elsewhere]
  rw [client_acts_typed running chat, early, lost]
  constructor
  · exact refines.phase
  · exact refines.joined
  · simp [nothing, composed]
  · simpa using refines.up
  · exact refines.down
  · exact refines.shown
  · simpa using refines.uplinkChat
  · exact refines.downlinkChat
  · exact refines.address
  · exact refines.admitted
  · simp [Faulted, running]

theorem ClientRefines.addressed (refines : ClientRefines roster i client member)
    (running : client.loop.status = .running) (chat : TypesChat client.loop)
    (known : client.loop.serverAddress = roster.serverAddress) :
    ClientRefines roster i (clientActs roster i client .kbhit)
      (member.offer (terminated (roster.typedText i client.loop))) := by
  have assigned := roster.serverAssigned
  have arrives : client.reached roster.serverAddress
      [textSend (roster.typedText i client.loop) roster.serverAddress false] =
        if client.phase = .inside then
          [textSend (roster.typedText i client.loop) roster.serverAddress false] else [] := by
    simp [Client.reached, Send.reaches, textSend]
  rw [client_acts_typed running chat, known, arrives]
  constructor
  · exact refines.phase
  · exact refines.joined
  · simp [Member.offer, refines.offered, assigned]
  · simp only [Member.offer, refines.phase, refines.up]
    split <;> simp [Roster.fromClient, textSend, terminated]
  · exact refines.down
  · exact refines.shown
  · intro packet queued
    rcases List.mem_append.mp queued with before | sent
    · exact refines.uplinkChat packet before
    · split at sent
      · cases List.mem_singleton.mp sent
        exact ⟨rfl, _, typed_text _ _ (gets_text_nul_free _ _), rfl⟩
      · cases sent
  · exact refines.downlinkChat
  · exact Or.inr known
  · intro outside
    exact refines.admitted outside
  · simp [Faulted, running]

/-- A chat line typed with the address known is offered, any earlier one is
composed and gone. -/
theorem ClientRefines.types (refines : ClientRefines roster i client member) :
    ∃ after, ClientRefines roster i (clientActs roster i client .kbhit) after ∧
      (after = member ∨ ∃ message, member.phase ≠ .outside ∧ after = member.offer message) := by
  by_cases running : client.loop.status = .running
  · by_cases chat : TypesChat client.loop
    -- where the Send goes depends on g_serverAddress alone
    · rcases refines.address with ⟨early, nothing⟩ | known
      · exact ⟨member, refines.unaddressed running chat early nothing, Or.inl rfl⟩
      · have admitted : member.phase ≠ .outside := by
          intro outside
          exact roster.serverAssigned (known.symm.trans (refines.admitted outside).1)
        exact ⟨_, refines.addressed running chat known, Or.inr ⟨_, admitted, rfl⟩⟩
    · obtain ⟨⟨silent, hidden⟩, address, unfaulted⟩ :=
        command_pass (roster.peer i) client.loop chat running
      have taken : step (roster.peer i) client.loop .kbhit =
          kbhit (roster.peer i) client.loop := by simp [step, running]
      rw [← taken] at silent hidden address unfaulted
      rw [client_acts_silent client .kbhit silent hidden]
      exact ⟨member, refines.quiet _ address unfaulted, Or.inl rfl⟩
  · have still := stopped_step (roster.peer i) client.loop running .kbhit
    rw [client_acts_silent client .kbhit (by rw [still]; rfl) (by rw [still]; rfl), still]
    exact ⟨member, refines, Or.inl rfl⟩

theorem ClientRefines.notified (refines : ClientRefines roster i client member) (packet : Packet)
    (named : namedNotification packet = true)
    (unaccepted : packetBranch packet ≠ some .connectionRequestAccepted) :
    ClientRefines roster i (clientActs roster i client (.receive packet)) member := by
  by_cases running : client.loop.status = .running
  · simp only [namedNotification, ne_eq, decide_not, Bool.and_eq_true, Bool.not_eq_true',
      decide_eq_false_iff_not] at named
    obtain ⟨branch, taken⟩ := Option.ne_none_iff_exists'.mp named.1
    have other : branch ≠ .connectionRequestAccepted := fun same => unaccepted (same ▸ taken)
    obtain ⟨after, silent, hidden⟩ := receive_named (roster.peer i) client.loop packet branch taken
      (fun same => named.2 (same ▸ taken)) running
    have received : step (roster.peer i) client.loop (.receive packet) =
        receive (roster.peer i) client.loop packet := by simp [step, running]
    rw [← received] at after silent hidden
    rw [client_acts_silent client _ silent hidden, after]
    exact refines.quiet _ (by simp [other]) (by simp [Faulted, running])
  · have still := stopped_step (roster.peer i) client.loop running (.receive packet)
    rw [client_acts_silent client _ (by rw [still]; rfl) (by rw [still]; rfl), still]
    exact refines

theorem ClientRefines.accepted (refines : ClientRefines roster i client member)
    (rest : List Packet) (queued : client.downlink = roster.acceptance :: rest)
    (running : client.loop.status = .running) :
    ClientRefines roster i
      (clientActs roster i { client with downlink := rest } (.receive roster.acceptance))
      member := by
  obtain ⟨after, silent, hidden⟩ := receive_named (roster.peer i) client.loop roster.acceptance
    .connectionRequestAccepted acceptance_branch (by decide) running
  have received : step (roster.peer i) client.loop (.receive roster.acceptance) =
      receive (roster.peer i) client.loop roster.acceptance := by simp [step, running]
  have unchatty : isChat roster.acceptance = false := by simp [isChat, acceptance_branch]
  rw [← received] at after silent hidden
  rw [client_acts_silent { client with downlink := rest } _ silent hidden, after]
  constructor
  · exact refines.phase
  · exact refines.joined
  · exact refines.offered
  · exact refines.up
  · simpa [queued, unchatty] using refines.down
  · exact refines.shown
  · exact refines.uplinkChat
  · intro packet later
    exact refines.downlinkChat packet (queued ▸ List.mem_cons_of_mem _ later)
  · exact Or.inr (by simp [Roster.peer, clientPeer, Roster.acceptance])
  · intro outside
    rw [(refines.admitted outside).2] at queued
    cases queued
  · simp [Faulted, running]

theorem ClientRefines.receives_chat (refines : ClientRefines roster i client member) (packet : Packet)
    (rest : List Packet) (queued : client.downlink = packet :: rest)
    (chat : ChatPacket roster.serverAddress packet) (running : client.loop.status = .running) :
    ClientRefines roster i (clientActs roster i { client with downlink := rest } (.receive packet))
        (member.display packet.data ((rest.filter isChat).map Packet.data)) ∧
      member.down = packet.data :: (rest.filter isChat).map Packet.data := by
  obtain ⟨text, sound, spelled⟩ := chat.spelled
  have received : step (roster.peer i) client.loop (.receive packet) =
      (client.loop, [.display text]) := by
    simp only [step, running, ↓reduceIte]
    exact receive_chat (roster.peer i) client.loop packet chat text sound spelled running
  have chatty : isChat packet = true := by simp [isChat, chat_packet_branch chat]
  constructor
  · constructor
    · exact refines.phase
    · exact refines.joined
    · simpa [clientActs, received, Member.display] using refines.offered
    · simpa [clientActs, received, Member.display, Client.reached] using refines.up
    · simp [clientActs, Member.display]
    · simp [clientActs, received, Member.display, refines.shown, spelled]
    · simpa [clientActs, received, Client.reached] using refines.uplinkChat
    · intro later member
      exact refines.downlinkChat later (queued ▸ List.mem_cons_of_mem _ member)
    · simpa [clientActs, received, Member.display] using refines.address
    · intro outside
      rw [(refines.admitted outside).2] at queued
      cases queued
    · simpa [clientActs, received] using refines.unfaulted
  · rw [refines.down, queued, List.filter_cons_of_pos chatty, List.map_cons]

theorem ClientRefines.joins (refines : ClientRefines roster i client member) (position : Nat)
    (absent : client.phase = .outside) :
    ClientRefines roster i { client with
        phase := .inside
        downlink := client.downlink ++ [roster.acceptance]
        joined := position } (member.join position) := by
  have unchatty : isChat roster.acceptance = false := by simp [isChat, acceptance_branch]
  have down := refines.down
  rw [(refines.admitted (refines.phase.trans absent)).2] at down
  constructor
  · rfl
  · rfl
  · exact refines.offered
  · exact refines.up
  · simp [Member.join, (refines.admitted (refines.phase.trans absent)).2, unchatty, down]
  · exact refines.shown
  · exact refines.uplinkChat
  · intro packet queued
    rcases List.mem_append.mp queued with before | last
    · exact refines.downlinkChat packet before
    · exact Or.inl (List.mem_singleton.mp last)
  · exact refines.address
  · intro outside
    cases outside
  · exact refines.unfaulted

theorem ClientRefines.leaves (refines : ClientRefines roster i client member)
    (keptUp keptDown : Nat) :
    ClientRefines roster i { client with
        phase := .gone
        uplink := client.uplink.take keptUp
        downlink := client.downlink.take keptDown }
      (member.leave keptUp ((client.downlink.take keptDown).filter isChat).length) := by
  have kept : (client.downlink.take keptDown).filter isChat <+: client.downlink.filter isChat :=
    (List.take_prefix keptDown client.downlink).filter isChat
  constructor
  · rfl
  · exact refines.joined
  · exact refines.offered
  · simp [Member.leave, refines.up]
  -- the chat among the packets kept is a prefix of the chat queued
  · simp only [Member.leave, refines.down, ← List.map_take]
    rw [← List.prefix_iff_eq_take.mp kept]
  · exact refines.shown
  · intro packet queued
    exact refines.uplinkChat packet (List.mem_of_mem_take queued)
  · intro packet queued
    exact refines.downlinkChat packet (List.mem_of_mem_take queued)
  · exact refines.address
  · intro outside
    cases outside
  · exact refines.unfaulted

theorem ClientRefines.hears (refines : ClientRefines roster i client member) (text : List UInt8)
    (sound : ChatText text) (excluded : SystemAddress) (other : excluded ≠ roster.address i) :
    ClientRefines roster i (clientHears roster i client [textSend text excluded true])
      (member.hear (terminated text)) := by
  have arrives : client.reached (roster.address i) [textSend text excluded true] =
      if client.phase = .inside then [textSend text excluded true] else [] := by
    simp [Client.reached, Send.reaches, textSend, other]
  have chat : ChatPacket roster.serverAddress (roster.fromServer (textSend text excluded true)) :=
    ⟨rfl, text, sound, rfl⟩
  have chatty : isChat (roster.fromServer (textSend text excluded true)) = true := by
    simp [isChat, chat_packet_branch chat]
  simp only [clientHears, arrives]
  constructor
  · exact refines.phase
  · exact refines.joined
  · exact refines.offered
  · exact refines.up
  · simp only [Member.hear, refines.phase, refines.down]
    split
    · rw [List.map_singleton, List.filter_append, List.filter_cons_of_pos chatty]
      simp [Roster.fromServer, textSend, terminated]
    · simp
  · exact refines.shown
  · exact refines.uplinkChat
  · intro packet queued
    rcases List.mem_append.mp queued with before | sent
    · exact refines.downlinkChat packet before
    · split at sent
      · cases List.mem_singleton.mp sent
        exact Or.inr chat
      · cases sent
  · exact refines.address
  · intro outside
    have absent : client.phase = .outside := refines.phase.symm.trans outside
    obtain ⟨address, nothing⟩ := refines.admitted outside
    exact ⟨address, by simp [nothing, absent]⟩
  · exact refines.unfaulted

theorem ClientRefines.relayed (refines : ClientRefines roster i client member) (packet : Packet)
    (rest : List Packet) (queued : client.uplink = packet :: rest) :
    ClientRefines roster i { client with uplink := rest }
      { member with up := rest.map Packet.data } := by
  constructor
  · exact refines.phase
  · exact refines.joined
  · exact refines.offered
  · rfl
  · exact refines.down
  · exact refines.shown
  · intro later kept
    exact refines.uplinkChat later (queued ▸ List.mem_cons_of_mem _ kept)
  · exact refines.downlinkChat
  · exact refines.address
  · exact refines.admitted
  · exact refines.unfaulted

theorem not_heard (text : List UInt8) :
    clientHears roster i client [textSend text (roster.address i) true] = client := by
  simp [clientHears, Client.reached, Send.reaches, textSend]

end Clients

section Server

variable {roster} {net : Network ι} {star : State ι (List UInt8)}

theorem start_refines (typed : ι → List UInt8) (typedAtServer : List UInt8) :
    Refines roster (.start typed typedAtServer) .start := by
  constructor
  · intro i
    constructor <;> simp [Network.start, State.start, Member.outside, loopEntry, Faulted]
  · rfl
  · rfl
  · simp [Network.start, Faulted, loopEntry]

theorem server_acts_silent (net : Network ι) (author : Option ι) (event : LoopEvent)
    (silent : sends (step (serverPeer roster.serverBuild) net.server event).2 = [])
    (hidden : displays (step (serverPeer roster.serverBuild) net.server event).2 = []) :
    serverActs roster net author event =
      { net with server := (step (serverPeer roster.serverBuild) net.server event).1 } := by
  simp [serverActs, silent, hidden, clientHears, Client.reached]

theorem Refines.server_moved (refines : Refines roster net star) (server : LoopState)
    (unfaulted : ¬ Faulted server) : Refines roster { net with server := server } star := by
  constructor
  · exact refines.clients
  · exact refines.log
  · exact refines.hub
  · exact unfaulted

/-- A line of the server's own goes to every connected client: no client has
the address it excludes. -/
theorem Refines.server_types (refines : Refines roster net star) :
    ∃ after, Refines roster (serverActs roster net none .kbhit) after ∧
      (after = star ∨ ∃ message, after = star.publish message) := by
  by_cases running : net.server.status = .running
  · have taken : step (serverPeer roster.serverBuild) net.server .kbhit =
        kbhit (serverPeer roster.serverBuild) net.server := by simp [step, running]
    by_cases chat : TypesChat net.server
    · have passed := chat_pass (serverPeer roster.serverBuild) net.server chat
      have sound := server_text (nextLine net.server.stdin) (gets_text_nul_free _ _)
      refine ⟨star.publish (terminated (chatText (cstring serverUserName.bytes)
        (nextLine net.server.stdin))), ?_, Or.inr ⟨_, rfl⟩⟩
      simp only [serverActs, taken, passed, sends_send, sends_nil, displays_send, displays_nil,
        List.append_nil]
      constructor
      · intro i
        exact (refines.clients i).hears _ sound _ (roster.assigned i).symm
      · simp only [State.publish, refines.log]
        rfl
      · exact refines.hub
      · simp [Faulted]
    · obtain ⟨⟨silent, hidden⟩, _, unfaulted⟩ :=
        command_pass (serverPeer roster.serverBuild) net.server chat running
      rw [← taken] at silent hidden unfaulted
      rw [server_acts_silent net none .kbhit silent hidden]
      exact ⟨star, refines.server_moved _ unfaulted, Or.inl rfl⟩
  · have still := stopped_step (serverPeer roster.serverBuild) net.server running .kbhit
    rw [server_acts_silent net none .kbhit (by rw [still]; rfl) (by rw [still]; rfl), still]
    exact ⟨star, refines, Or.inl rfl⟩

theorem Refines.server_notified (refines : Refines roster net star) (packet : Packet)
    (named : namedNotification packet = true) :
    Refines roster (serverActs roster net none (.receive packet)) star := by
  by_cases running : net.server.status = .running
  · simp only [namedNotification, ne_eq, decide_not, Bool.and_eq_true, Bool.not_eq_true',
      decide_eq_false_iff_not] at named
    obtain ⟨branch, taken⟩ := Option.ne_none_iff_exists'.mp named.1
    obtain ⟨after, silent, hidden⟩ := receive_named (serverPeer roster.serverBuild) net.server
      packet branch taken (fun same => named.2 (same ▸ taken)) running
    have received : step (serverPeer roster.serverBuild) net.server (.receive packet) =
        receive (serverPeer roster.serverBuild) net.server packet := by simp [step, running]
    rw [← received] at after silent hidden
    rw [server_acts_silent net none _ silent hidden, after]
    exact refines.server_moved _ (by simp [Faulted, running])
  · have still := stopped_step (serverPeer roster.serverBuild) net.server running
      (.receive packet)
    rw [server_acts_silent net none _ (by rw [still]; rfl) (by rw [still]; rfl), still]
    exact refines

end Server

section Networks

variable [DecidableEq ι] {roster} {net : Network ι} {star : State ι (List UInt8)}

theorem Refines.update (refines : Refines roster net star) (i : ι) (client : Client)
    (member : Member (List UInt8)) (changed : ClientRefines roster i client member) :
    Refines roster (net.update i client) (star.update i member) := by
  constructor
  · intro j
    by_cases same : j = i
    · subst j
      simpa [Network.update, State.update] using changed
    · simpa [Network.update, State.update, same] using refines.clients j
  · exact refines.log
  · exact refines.hub
  · exact refines.unfaulted

theorem Refines.update_only (refines : Refines roster net star) (i : ι) (client : Client)
    (changed : ClientRefines roster i client (star.member i)) :
    Refines roster (net.update i client) star := by
  have updated := refines.update i client (star.member i) changed
  have same : star.update i (star.member i) = star := by simp [State.update]
  rwa [same] at updated

theorem Refines.server_receives (refines : Refines roster net star) (i : ι) (packet : Packet)
    (rest : List Packet) (queued : (net.client i).uplink = packet :: rest)
    (running : net.server.status = .running) :
    Refines roster
        (serverActs roster (net.update i { net.client i with uplink := rest }) (some i)
          (.receive packet))
        (star.relay i packet.data (rest.map Packet.data)) ∧
      (star.member i).up = packet.data :: rest.map Packet.data := by
  have chat := (refines.clients i).uplinkChat packet (by simp [queued])
  obtain ⟨text, sound, spelled⟩ := chat.spelled
  have received : step (serverPeer roster.serverBuild) net.server (.receive packet) =
      (net.server, [.display text, .send (textSend text (roster.address i) true)]) := by
    simp only [step, running, ↓reduceIte]
    exact receive_chat (serverPeer roster.serverBuild) net.server packet chat text sound spelled
      running
  constructor
  · simp only [serverActs, Network.update, received, sends_display, sends_send, sends_nil,
      displays_display, displays_send, displays_nil]
    constructor
    · intro j
      -- the broadcast excludes the address the packet came from, and no other
      by_cases same : j = i
      · subst j
        simp only [Function.update_self, not_heard, State.relay, ↓reduceIte]
        exact (refines.clients i).relayed packet rest queued
      · have other : roster.address i ≠ roster.address j := fun equal =>
          same (roster.distinct equal).symm
        have heard := (refines.clients j).hears text sound (roster.address i) other
        simpa only [Function.update_of_ne same, State.relay, same, ↓reduceIte, spelled] using heard
    · simp only [State.relay, refines.log, spelled]
      rfl
    · simp [State.relay, refines.hub, spelled]
    · exact refines.unfaulted
  · rw [(refines.clients i).up, queued, List.map_cons]

/-- Every step of the network is a step of the star or invisible to it. -/
theorem network_step_refines (event : NetworkEvent ι) (after : Network ι)
    (refines : Refines roster net star) (taken : networkStep roster net event = some after) :
    ∃ right, (right = star ∨ Next star right) ∧ Refines roster after right := by
  have moved := network_step_moved roster net event after taken
  cases event with
  | clientTypes i =>
      cases moved
      obtain ⟨member, changed, unchanged | ⟨message, admitted, offered⟩⟩ :=
        (refines.clients i).types
      · exact ⟨star, Or.inl rfl, refines.update_only i _ (unchanged ▸ changed)⟩
      · exact ⟨_, Or.inr (.offer star i message admitted),
          refines.update i _ _ (offered ▸ changed)⟩
  | clientReceives i =>
      obtain ⟨packet, rest, queued, running, rfl⟩ := moved
      rcases (refines.clients i).downlinkChat packet (by simp [queued]) with rfl | chat
      · exact ⟨star, Or.inl rfl,
          refines.update_only i _ ((refines.clients i).accepted rest queued running)⟩
      · obtain ⟨changed, down⟩ := (refines.clients i).receives_chat packet rest queued chat running
        exact ⟨_, Or.inr (.display star i _ _ down), refines.update i _ _ changed⟩
  | clientNotified i packet =>
      obtain ⟨named, unaccepted, rfl⟩ := moved
      exact ⟨star, Or.inl rfl,
        refines.update_only i _ ((refines.clients i).notified packet named unaccepted)⟩
  | serverTypes =>
      cases moved
      obtain ⟨right, changed, rfl | ⟨message, rfl⟩⟩ := refines.server_types
      · exact ⟨right, Or.inl rfl, changed⟩
      · exact ⟨_, Or.inr (.publish star message), changed⟩
  | serverReceives i =>
      obtain ⟨packet, rest, queued, running, rfl⟩ := moved
      obtain ⟨changed, up⟩ := refines.server_receives i packet rest queued running
      exact ⟨_, Or.inr (.relay star i _ _ up), changed⟩
  | serverNotified packet =>
      obtain ⟨named, rfl⟩ := moved
      exact ⟨star, Or.inl rfl, refines.server_notified packet named⟩
  | joins i =>
      obtain ⟨absent, rfl⟩ := moved
      have outside : (star.member i).phase = .outside := (refines.clients i).phase.trans absent
      have changed := (refines.clients i).joins net.log.length absent
      rw [← refines.log] at changed ⊢
      exact ⟨_, Or.inr (.join star i outside), refines.update i _ _ changed⟩
  | leaves i keptUp keptDown =>
      obtain ⟨present, rfl⟩ := moved
      have inside : (star.member i).phase = .inside := (refines.clients i).phase.trans present
      exact ⟨_, Or.inr (.leave star i keptUp _ inside),
        refines.update i _ _ ((refines.clients i).leaves keptUp keptDown)⟩

end Networks

end DrakNet
