import DrakNet.Chat

/-!
What becomes of the packets under way. From any network that is reached, with
the server still running, some order of deliveries alone empties every uplink
and the downlink of every client that runs: the server first takes what has
come up, then each client what goes down to it. Then the log holds all that was
composed in time by those inside, and of these everyone running has displayed
what the others have logged.
-/

namespace DrakNet

open CString StarBroadcast

variable {ι : Type} [DecidableEq ι] {roster : Roster ι}

section Accounts

/-- Where everything composed is to be found: with the early lines, which are
lost, in the log, or still under way; and the same of all that is heard. -/
structure Accounted (net : Network ι) : Prop where
  logged : ∀ i, (net.client i).early ++ byAuthor i net.log <+: (net.client i).composed
  carried : ∀ i, (net.client i).phase = .inside →
    (net.client i).early ++ byAuthor i net.log ++ (net.client i).uplink.map Packet.data =
      (net.client i).composed
  heard : ∀ i, (net.client i).displayed.map terminated <+:
    foreign i (net.log.drop (net.client i).joined)
  current : ∀ i, (net.client i).phase = .inside →
    (net.client i).displayed.map terminated ++
        ((net.client i).downlink.filter isChat).map Packet.data =
      foreign i (net.log.drop (net.client i).joined)
  outside : ∀ i, (net.client i).phase = .outside →
    (net.client i).composed = (net.client i).early ∧ (net.client i).displayed = []

/-- In every run, whenever its lines are typed, nothing is lost but the lines
composed before a client knew its server, and nothing else is out of order. -/
theorem chat_accounted (roster : Roster ι) {allowed : Network ι → NetworkEvent ι → Prop}
    (typed : ι → List UInt8) (typedAtServer : List UInt8) (net : Network ι)
    (reached : Runs.Reach (networkStep roster) allowed (.start typed typedAtServer) net) :
    Accounted net := by
  rcases reached_refines reached with ⟨star, started, refines⟩
  have invariant := reachable_invariant started
  refine ⟨authored_after_early reached, ?_, displayed_in_order started refines,
    displayed_or_under_way started refines, ?_⟩
  · intro i present
    have carried := (invariant.members i).upwardAll ((refines.clients i).phase.trans present)
    rw [refines.log, (refines.clients i).up] at carried
    rw [List.append_assoc, carried]
    exact (refines.clients i).offered.symm
  · intro i absent
    rcases (invariant.members i).absent ((refines.clients i).phase.trans absent)
      with ⟨nothing, _, unseen⟩
    rw [(refines.clients i).shown, List.map_eq_nil_iff] at unseen
    refine ⟨?_, unseen⟩
    rw [(refines.clients i).offered, nothing, List.append_nil]

theorem early_line_accounted :
    ∃ net : Network Bool, Accounted net ∧
      (net.client false).early = [terminated (ascii "[A] : hi")] ∧
      byAuthor false net.log = [terminated (ascii "[A] : yo")] := by
  have ran : (Runs.follow (networkStep twoClients) (fun _ _ => True)
      (.start linesOf []) typedFirst).map (fun net =>
        decide ((net.client false).early = [terminated (ascii "[A] : hi")] ∧
          byAuthor false net.log = [terminated (ascii "[A] : yo")])) =
      some true := by decide +kernel
  rcases Option.map_eq_some_iff.mp ran with ⟨net, followed, decided⟩
  exact ⟨net, chat_accounted twoClients linesOf [] net
    (Runs.reach_follow typedFirst .start followed), of_decide_eq_true decided⟩

end Accounts

def NetworkEvent.isDelivery : NetworkEvent ι → Bool
  | .serverReceives _ => true
  | .clientReceives _ => true
  | _ => false

section Steps

variable (roster : Roster ι)

structure LawfulNetwork where
  net : Network ι
  lawful : ∃ star, Reachable star ∧ Refines roster net star

variable {roster}

theorem lawful_step {before after : Network ι} {event : NetworkEvent ι}
    (lawful : ∃ star, Reachable star ∧ Refines roster before star)
    (taken : networkStep roster before event = some after) :
    ∃ star, Reachable star ∧ Refines roster after star := by
  rcases lawful with ⟨star, reached, refines⟩
  rcases network_step_refines event after refines taken with ⟨right, moved, refinesAfter⟩
  refine ⟨right, ?_, refinesAfter⟩
  rcases moved with rfl | moved
  · exact reached
  · exact reached.tail moved

structure SameClient (before after : Client) : Prop where
  running : before.loop.status = .running → after.loop.status = .running
  composed : after.composed = before.composed
  early : after.early = before.early
  phase : after.phase = before.phase
  joined : after.joined = before.joined

theorem same_client_refl (client : Client) : SameClient client client :=
  ⟨id, rfl, rfl, rfl, rfl⟩

theorem same_client_trans {before middle after : Client} (first : SameClient before middle)
    (later : SameClient middle after) : SameClient before after where
  running := fun running => later.running (first.running running)
  composed := later.composed.trans first.composed
  early := later.early.trans first.early
  phase := later.phase.trans first.phase
  joined := later.joined.trans first.joined

omit [DecidableEq ι] in
theorem hears_same_client (client : Client) (i : ι) (requests : List Send) :
    SameClient client (clientHears roster i client requests) :=
  ⟨id, rfl, rfl, rfl, rfl⟩

theorem update_same_client (net : Network ι) (i : ι) (client : Client)
    (same : SameClient (net.client i) client) (j : ι) :
    SameClient (net.client j) ((net.update i client).client j) := by
  by_cases own : j = i
  · subst j
    simpa only [Network.update, Function.update_self] using same
  · simpa only [Network.update, Function.update_of_ne own] using same_client_refl (net.client j)

structure Settles (before after : LawfulNetwork roster) : Prop where
  run : Runs.Reach (networkStep roster) (fun _ event => event.isDelivery = true) before.net after.net
  server : before.net.server.status = .running → after.net.server.status = .running
  client : ∀ i, SameClient (before.net.client i) (after.net.client i)

theorem settles_refl (state : LawfulNetwork roster) : Settles state state :=
  ⟨.start, id, fun _ => same_client_refl _⟩

theorem settles_trans (before middle after : LawfulNetwork roster) (first : Settles before middle)
    (later : Settles middle after) : Settles before after where
  run := Runs.reach_trans first.run later.run
  server := fun running => later.server (first.server running)
  client := fun i => same_client_trans (first.client i) (later.client i)

theorem received_running (peer : Peer) (state : LoopState) (packet : Packet)
    (running : state.status = .running)
    (unfaulted : ¬ Faulted (step peer state (.receive packet)).1) :
    (step peer state (.receive packet)).1.status = .running := by
  simp only [step, running, ↓reduceIte, receive] at unfaulted ⊢
  generalize (handlePacket peer.build peer.isServer (Buffer.init messageSize [])
    state.serverAddress packet).fault = fault at unfaulted ⊢
  cases fault with
  | none => rfl
  | some fault => exact absurd ⟨fault, rfl⟩ unfaulted

theorem server_delivery (state : LawfulNetwork roster) (i : ι) (packet : Packet)
    (rest : List Packet) (running : state.net.server.status = .running)
    (queued : (state.net.client i).uplink = packet :: rest) :
    ∃ after, Settles state after ∧ (after.net.client i).uplink = rest ∧
      ∀ j, j ≠ i → (after.net.client j).uplink = (state.net.client j).uplink := by
  have taken : networkStep roster state.net (.serverReceives i) =
      some (serverActs roster (state.net.update i { state.net.client i with uplink := rest })
        (some i) (.receive packet)) := by
    simp only [networkStep, queued, running, ↓reduceIte]
  have lawful := lawful_step state.lawful taken
  have unfaulted : ¬ Faulted (step (serverPeer roster.serverBuild) state.net.server
      (.receive packet)).1 := by
    rcases lawful with ⟨star, _, refines⟩
    exact refines.unfaulted
  have shorter : SameClient (state.net.client i) { state.net.client i with uplink := rest } :=
    ⟨id, rfl, rfl, rfl, rfl⟩
  refine ⟨⟨_, lawful⟩, ⟨?_, ?_, ?_⟩, ?_, ?_⟩
  · exact Runs.reach_single (.serverReceives i) rfl taken
  · intro _
    exact received_running _ _ packet running unfaulted
  · intro j
    refine same_client_trans ?_ (hears_same_client _ j _)
    exact update_same_client state.net i _ shorter j
  · simp [serverActs, clientHears, Network.update]
  · intro j other
    simp [serverActs, clientHears, Network.update, other]

theorem client_delivery (state : LawfulNetwork roster) (i : ι) (packet : Packet)
    (rest : List Packet) (running : (state.net.client i).loop.status = .running)
    (queued : (state.net.client i).downlink = packet :: rest) :
    ∃ after, (Settles state after ∧
        ∀ j, (after.net.client j).uplink = (state.net.client j).uplink) ∧
      (after.net.client i).downlink = rest ∧
      ∀ j, j ≠ i → (after.net.client j).downlink = (state.net.client j).downlink := by
  have taken : networkStep roster state.net (.clientReceives i) =
      some (state.net.update i
        (clientActs roster i { state.net.client i with downlink := rest } (.receive packet))) := by
    simp only [networkStep, queued, running, ↓reduceIte]
  have lawful := lawful_step state.lawful taken
  have silent : sends (step (roster.peer i) (state.net.client i).loop (.receive packet)).2 = [] := by
    apply List.eq_nil_iff_forall_not_mem.mpr
    intro request sent
    have typed := (client_step_sends (roster.build i) (roster.name i) (state.net.client i).loop _
      request sent).2.1
    cases typed
  have unfaulted : ¬ Faulted (step (roster.peer i) (state.net.client i).loop (.receive packet)).1 := by
    rcases lawful with ⟨star, _, refines⟩
    simpa [Network.update, clientActs] using (refines.clients i).unfaulted
  refine ⟨⟨_, lawful⟩, ⟨⟨?_, ?_, ?_⟩, ?_⟩, ?_, ?_⟩
  · exact Runs.reach_single (.clientReceives i) rfl taken
  · exact id
  · refine update_same_client state.net i _ ⟨?_, ?_, ?_, rfl, rfl⟩
    · intro _
      exact received_running (roster.peer i) _ packet running unfaulted
    · simp [clientActs, silent]
    · simp [clientActs, silent]
  · intro j
    by_cases own : j = i
    · subst j
      simp [Network.update, clientActs, silent, Client.reached]
    · simp [Network.update, own]
  · simp [Network.update, clientActs]
  · intro j other
    simp [Network.update, other]

end Steps

section Members

theorem admitted_before {net : Network ι} {i j : ι} {client : Client}
    (admitted : ((net.update i client).client j).phase ≠ .outside)
    (same : client.phase = (net.client i).phase) : (net.client j).phase ≠ .outside := by
  by_cases own : j = i
  · subst j
    rw [← same]
    simpa [Network.update] using admitted
  · simpa [Network.update, own] using admitted

theorem phase_moved {before after : Network ι} {event : NetworkEvent ι}
    (taken : networkStep roster before event = some after) (j : ι)
    (admitted : (after.client j).phase ≠ .outside) :
    (before.client j).phase ≠ .outside ∨ event = .joins j := by
  have moved := network_step_moved roster before event after taken
  cases event with
  | clientTypes i =>
      cases moved
      exact Or.inl (admitted_before admitted rfl)
  | clientReceives i =>
      rcases moved with ⟨packet, rest, _, _, rfl⟩
      exact Or.inl (admitted_before admitted rfl)
  | clientNotified i packet =>
      rcases moved with ⟨_, _, rfl⟩
      exact Or.inl (admitted_before admitted rfl)
  | serverTypes =>
      cases moved
      exact Or.inl admitted
  | serverReceives i =>
      rcases moved with ⟨packet, rest, _, _, rfl⟩
      left
      change ((before.update i { before.client i with uplink := rest }).client j).phase ≠ .outside
        at admitted
      exact admitted_before admitted rfl
  | serverNotified packet =>
      rcases moved with ⟨_, rfl⟩
      exact Or.inl admitted
  | joins i =>
      rcases moved with ⟨_, rfl⟩
      by_cases own : j = i
      · exact Or.inr (own ▸ rfl)
      · left
        simpa [Network.update, own] using admitted
  | leaves i keptUp keptDown =>
      rcases moved with ⟨present, rfl⟩
      by_cases own : j = i
      · subst j
        simp [present]
      · left
        simpa [Network.update, own] using admitted

/-- Only a client that joined is not outside, so there are finitely many. -/
theorem joined_members {allowed : Network ι → NetworkEvent ι → Prop} {typed : ι → List UInt8}
    {typedAtServer : List UInt8} {net : Network ι}
    (reached : Runs.Reach (networkStep roster) allowed (.start typed typedAtServer) net) :
    ∃ members : List ι, ∀ i, (net.client i).phase ≠ .outside → i ∈ members := by
  refine Runs.reach_invariant (fun net : Network ι => ∃ members : List ι,
    ∀ i, (net.client i).phase ≠ .outside → i ∈ members) ⟨[], fun i inside => absurd rfl inside⟩
    ?_ reached
  rintro before event after ⟨members, covered⟩ _ taken
  have stays : ∀ i, (after.client i).phase ≠ .outside → i ∈ members ∨ event = .joins i :=
    fun i admitted => (phase_moved taken i admitted).imp_left (covered i)
  cases event with
  | joins i =>
      refine ⟨i :: members, ?_⟩
      intro j admitted
      rcases stays j admitted with old | ⟨⟨⟩⟩
      · exact List.mem_cons_of_mem _ old
      · exact List.mem_cons_self
  | _ => exact ⟨members, fun j admitted => (stays j admitted).resolve_right nofun⟩

theorem outside_empty (state : LawfulNetwork roster) (i : ι)
    (outside : (state.net.client i).phase = .outside) :
    (state.net.client i).uplink = [] ∧ (state.net.client i).downlink = [] := by
  rcases state.lawful with ⟨star, reached, refines⟩
  have absent := (refines.clients i).phase.trans outside
  have sound := (reachable_invariant reached).members i
  have upward := sound.upward
  rw [(sound.absent absent).1, List.prefix_nil, List.append_eq_nil_iff,
    (refines.clients i).up, List.map_eq_nil_iff] at upward
  exact ⟨upward.2, ((refines.clients i).admitted absent).2⟩

end Members

section Drained

variable (state : LawfulNetwork roster) (members : List ι)
  (covered : ∀ i, (state.net.client i).phase ≠ .outside → i ∈ members)

include covered

theorem uplinks_drain (serving : state.net.server.status = .running) :
    ∃ after, Settles state after ∧ ∀ i, (after.net.client i).uplink = [] := by
  rcases Runs.drain_all (Settles : LawfulNetwork roster → LawfulNetwork roster → Prop)
    (fun state i => (state.net.client i).uplink)
    (fun state _ => state.net.server.status = .running)
    settles_refl settles_trans (fun _ _ _ settles => settles.server)
    (fun state i packet rest => server_delivery state i packet rest) members state
    with ⟨after, settles, drained, _⟩
  refine ⟨after, settles, ?_⟩
  intro i
  by_cases admitted : (state.net.client i).phase = .outside
  · exact (outside_empty after i ((settles.client i).phase.trans admitted)).1
  · exact drained i (covered i admitted) serving

theorem downlinks_drain :
    ∃ after, (Settles state after ∧
        ∀ i, (after.net.client i).uplink = (state.net.client i).uplink) ∧
      ∀ i, (state.net.client i).loop.status = .running → (after.net.client i).downlink = [] := by
  rcases Runs.drain_all
    (fun before after : LawfulNetwork roster => Settles before after ∧
      ∀ i, (after.net.client i).uplink = (before.net.client i).uplink)
    (fun state i => (state.net.client i).downlink)
    (fun state i => (state.net.client i).loop.status = .running)
    (fun state => ⟨settles_refl state, fun _ => rfl⟩)
    (fun _ _ _ first later => ⟨settles_trans _ _ _ first.1 later.1,
      fun i => (later.2 i).trans (first.2 i)⟩)
    (fun _ _ i settles => (settles.1.client i).running)
    (fun state i packet rest => client_delivery state i packet rest) members state
    with ⟨after, settles, drained, _⟩
  refine ⟨after, settles, ?_⟩
  intro i running
  by_cases admitted : (state.net.client i).phase = .outside
  · exact (outside_empty after i ((settles.1.client i).phase.trans admitted)).2
  · exact drained i (covered i admitted) running

theorem deliveries_drain (serving : state.net.server.status = .running) :
    ∃ after, Settles state after ∧ (∀ i, (after.net.client i).uplink = []) ∧
      ∀ i, (state.net.client i).loop.status = .running → (after.net.client i).downlink = [] := by
  rcases uplinks_drain state members covered serving with ⟨middle, settles, up⟩
  have still : ∀ i, (middle.net.client i).phase ≠ .outside → i ∈ members := by
    intro i admitted
    rw [(settles.client i).phase] at admitted
    exact covered i admitted
  rcases downlinks_drain middle members still with ⟨after, ⟨settlesOn, same⟩, down⟩
  refine ⟨after, settles_trans _ _ _ settles settlesOn, ?_, ?_⟩
  · intro i
    rw [same i, up i]
  · intro i running
    exact down i ((settles.client i).running running)

end Drained

section Complete

variable (roster) {allowed : Network ι → NetworkEvent ι → Prop} (typed : ι → List UInt8)
  (typedAtServer : List UInt8) (net : Network ι)

/-- All that was under way in `net` has arrived in `final`, and no more was
composed meanwhile. -/
structure AllArrived (net final : Network ι) : Prop where
  composed : ∀ i, (final.client i).composed = (net.client i).composed
  uplinks : ∀ i, (final.client i).uplink = []
  downlinks : ∀ i, (net.client i).loop.status = .running → (final.client i).downlink = []
  logged : ∀ i, (net.client i).phase = .inside →
    (net.client i).early ++ byAuthor i final.log = (net.client i).composed
  displayed : ∀ i, (net.client i).phase = .inside → (net.client i).loop.status = .running →
    (final.client i).displayed.map terminated = foreign i (final.log.drop (net.client i).joined)
  atServer : final.displayed.map terminated = fromMembers final.log

/-- From every network that is reached, as long as the server runs, deliveries
alone empty every uplink and every running client's downlink. -/
theorem deliveries_complete
    (reached : Runs.Reach (networkStep roster) allowed (.start typed typedAtServer) net)
    (serving : net.server.status = .running) :
    ∃ final, Runs.Reach (networkStep roster) (fun _ event => event.isDelivery = true) net final ∧
      AllArrived net final := by
  rcases joined_members reached with ⟨members, covered⟩
  rcases deliveries_drain ⟨net, reached_refines reached⟩ members covered serving
    with ⟨⟨final, star, started, refines⟩, settles, up, down⟩
  have invariant := reachable_invariant started
  refine ⟨final, settles.run, fun i => (settles.client i).composed, up, down, ?_, ?_, ?_⟩
  · intro i present
    have inside : (star.member i).phase = .inside :=
      ((refines.clients i).phase.trans (settles.client i).phase).trans present
    have carried := (invariant.members i).upwardAll inside
    rw [refines.log, (refines.clients i).up, up i, List.map_nil, List.append_nil] at carried
    rw [← (settles.client i).composed, ← (settles.client i).early, carried]
    exact (refines.clients i).offered.symm
  · intro i present running
    have current := displayed_or_under_way started refines i
      ((settles.client i).phase.trans present)
    rw [down i running, List.filter_nil, List.map_nil, List.append_nil] at current
    rw [← (settles.client i).joined]
    exact current
  · rw [← refines.hub, ← refines.log]
    exact invariant.hub

end Complete

def allTyped : List (NetworkEvent Bool) :=
  [.joins false, .joins true, .clientReceives false, .clientTypes false, .serverTypes]

theorem typed_then_delivered :
    ∃ net final : Network Bool,
      Runs.Reach (networkStep twoClients) (fun _ event => event.isDelivery = true) net final ∧
      AllArrived net final ∧ byAuthor false net.log = [] ∧
      byAuthor false final.log = [terminated (ascii "[A] : hi")] := by
  have ran : (Runs.follow (networkStep twoClients) (fun _ _ => True)
      (.start linesOf (ascii "ho" ++ [10])) allTyped).map (fun net =>
        decide (net.server.status = .running ∧ (net.client false).phase = .inside ∧
          (net.client false).early = [] ∧ byAuthor false net.log = [] ∧
          (net.client false).composed = [terminated (ascii "[A] : hi")])) =
      some true := by decide +kernel
  rcases Option.map_eq_some_iff.mp ran with ⟨net, followed, decided⟩
  rcases of_decide_eq_true decided with ⟨serving, inside, nothing, above, composed⟩
  rcases deliveries_complete twoClients linesOf (ascii "ho" ++ [10]) net
    (Runs.reach_follow allTyped .start followed) serving with ⟨final, delivered, arrived⟩
  refine ⟨net, final, delivered, arrived, above, ?_⟩
  have carried := arrived.logged false inside
  rwa [nothing, List.nil_append, composed] at carried

end DrakNet
