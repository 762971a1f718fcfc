import DrakNet.Broadcast
import DrakNet.Connection

/-!
What the chat promises its users. The log holds each client's messages in the
order they were composed, and everyone displays what the others have logged
since joining, once and in the order of the log. A line typed before the
acceptance has come is the one exception: it is composed and then lost, so a
client's messages arrive behind a gap. `Patient` rules such lines out.
-/

namespace DrakNet

open CString StarBroadcast

variable {ι : Type} [DecidableEq ι]

/-- Connections keep everything in order, and whoever is still inside has lost
nothing on the way. -/
structure OrderedBroadcast (net : Network ι) : Prop where
  authored : ∀ i, byAuthor i net.log <+: (net.client i).composed
  carried : ∀ i, (net.client i).phase = .inside →
    byAuthor i net.log ++ (net.client i).uplink.map Packet.data = (net.client i).composed
  heard : ∀ i, (net.client i).displayed.map terminated <+:
    foreign i (net.log.drop (net.client i).joined)
  current : ∀ i, (net.client i).phase = .inside →
    (net.client i).displayed.map terminated ++
        ((net.client i).downlink.filter isChat).map Packet.data =
      foreign i (net.log.drop (net.client i).joined)
  atServer : net.displayed.map terminated = fromMembers net.log
  unfaulted : ¬ Faulted net.server ∧ ∀ i, ¬ Faulted (net.client i).loop

/-- No chat line is typed at a client that does not know its server yet. -/
def Patient (net : Network ι) : NetworkEvent ι → Prop
  | .clientTypes i => (net.client i).loop.status = .running → TypesChat (net.client i).loop →
      (net.client i).loop.serverAddress ≠ .unassignedSystemAddress
  | _ => True

section Early

variable (roster : Roster ι)

omit [DecidableEq ι] in
theorem client_acts_early (i : ι) (client : Client) (event : LoopEvent)
    (patient : event = .kbhit → client.loop.status = .running → TypesChat client.loop →
      client.loop.serverAddress ≠ .unassignedSystemAddress) :
    (clientActs roster i client event).early = client.early := by
  -- with the address known nothing counts as early, otherwise nothing is sent
  by_cases known : client.loop.serverAddress = .unassignedSystemAddress
  · have nothing : sends (step (roster.peer i) client.loop event).2 = [] := by
      apply List.eq_nil_iff_forall_not_mem.mpr
      intro request sent
      obtain ⟨running, typing, chat, _⟩ :=
        client_step_sends (roster.build i) (roster.name i) client.loop event request sent
      exact patient typing running chat known
    simp [clientActs, nothing]
  · simp [clientActs, known]

theorem update_early (net : Network ι) (i : ι) (client : Client)
    (nothing : ∀ j, (net.client j).early = []) (changed : client.early = []) (j : ι) :
    ((net.update i client).client j).early = [] := by
  by_cases same : j = i
  · subst j
    simpa [Network.update] using changed
  · simpa [Network.update, same] using nothing j

omit [DecidableEq ι] in
theorem client_receives_early (i : ι) (client : Client) (packet : Packet) :
    (clientActs roster i client (.receive packet)).early = client.early := by
  apply client_acts_early roster i client
  intro same
  cases same

theorem network_step_early (before after : Network ι) (event : NetworkEvent ι)
    (nothing : ∀ i, (before.client i).early = []) (patient : Patient before event)
    (taken : networkStep roster before event = some after) (i : ι) :
    (after.client i).early = [] := by
  have moved := network_step_moved roster before event after taken
  cases event with
  | clientTypes j =>
      cases moved
      apply update_early before j _ nothing
      rw [client_acts_early roster j _ .kbhit fun _ => patient]
      exact nothing j
  | clientReceives j =>
      obtain ⟨packet, rest, _, _, rfl⟩ := moved
      apply update_early before j _ nothing
      rw [client_receives_early]
      exact nothing j
  | clientNotified j packet =>
      obtain ⟨_, _, rfl⟩ := moved
      apply update_early before j _ nothing
      rw [client_receives_early]
      exact nothing j
  | serverTypes =>
      cases moved
      exact nothing i
  | serverReceives j =>
      obtain ⟨packet, rest, _, _, rfl⟩ := moved
      exact update_early before j { before.client j with uplink := rest } nothing (nothing j) i
  | serverNotified packet =>
      obtain ⟨_, rfl⟩ := moved
      exact nothing i
  | joins j =>
      obtain ⟨_, rfl⟩ := moved
      apply update_early before j _ nothing
      exact nothing j
  | leaves j keptUp keptDown =>
      obtain ⟨_, rfl⟩ := moved
      apply update_early before j _ nothing
      exact nothing j

end Early

section Reached

variable {roster : Roster ι} {allowed : Network ι → NetworkEvent ι → Prop} {typed : ι → List UInt8}
  {typedAtServer : List UInt8} {net : Network ι}

theorem reached_refines
    (reached : Runs.Reach (networkStep roster) allowed (.start typed typedAtServer) net) :
    ∃ star, Reachable star ∧ Refines roster net star :=
  Runs.reach_simulates (start_refines typed typedAtServer)
    (fun _ event after _ refines _ taken => network_step_refines event after refines taken) reached

/-- In every run the log has each client's messages in order, from the first
one composed with the address known. -/
theorem authored_after_early
    (reached : Runs.Reach (networkStep roster) allowed (.start typed typedAtServer) net) (i : ι) :
    (net.client i).early ++ byAuthor i net.log <+: (net.client i).composed := by
  obtain ⟨star, started, refines⟩ := reached_refines reached
  have sound := (reachable_invariant started).members i
  have logged := (List.prefix_append _ _).trans sound.upward
  rw [(refines.clients i).offered, ← refines.log]
  exact (List.prefix_append_right_inj _).mpr logged

/-- While a client is inside, a line typed too early is all it can have lost. -/
theorem carried_iff_nothing_early
    (reached : Runs.Reach (networkStep roster) allowed (.start typed typedAtServer) net) (i : ι)
    (present : (net.client i).phase = .inside) :
    byAuthor i net.log ++ (net.client i).uplink.map Packet.data = (net.client i).composed ↔
      (net.client i).early = [] := by
  obtain ⟨star, started, refines⟩ := reached_refines reached
  have carried := ((reachable_invariant started).members i).upwardAll
    ((refines.clients i).phase.trans present)
  rw [refines.log, (refines.clients i).up] at carried
  rw [carried, (refines.clients i).offered]
  exact List.self_eq_append_left

theorem displayed_in_order {star : State ι (List UInt8)} (started : Reachable star)
    (refines : Refines roster net star) (i : ι) :
    (net.client i).displayed.map terminated <+: foreign i (net.log.drop (net.client i).joined) := by
  rw [← (refines.clients i).shown, ← refines.log, ← (refines.clients i).joined]
  exact (List.prefix_append _ _).trans ((reachable_invariant started).members i).downward

theorem displayed_or_under_way {star : State ι (List UInt8)} (started : Reachable star)
    (refines : Refines roster net star) (i : ι) (present : (net.client i).phase = .inside) :
    (net.client i).displayed.map terminated ++
        ((net.client i).downlink.filter isChat).map Packet.data =
      foreign i (net.log.drop (net.client i).joined) := by
  rw [← (refines.clients i).shown, ← (refines.clients i).down, ← refines.log,
    ← (refines.clients i).joined]
  exact ((reachable_invariant started).members i).downwardAll
    ((refines.clients i).phase.trans present)

/-- Of the broadcast only what a client composes too early can fail. -/
theorem broadcast_without_gaps
    (reached : Runs.Reach (networkStep roster) allowed (.start typed typedAtServer) net)
    (authored : ∀ i, byAuthor i net.log <+: (net.client i).composed)
    (gapless : ∀ i, (net.client i).phase = .inside → (net.client i).early = []) :
    OrderedBroadcast net := by
  obtain ⟨star, started, refines⟩ := reached_refines reached
  refine ⟨authored, ?_, displayed_in_order started refines, displayed_or_under_way started refines,
    ?_, refines.unfaulted, fun i => (refines.clients i).unfaulted⟩
  · intro i present
    exact (carried_iff_nothing_early reached i present).mpr (gapless i present)
  · rw [← refines.hub, ← refines.log]
    exact (reachable_invariant started).hub

theorem nothing_early
    (reached : Runs.Reach (networkStep roster) Patient (.start typed typedAtServer) net) (i : ι) :
    (net.client i).early = [] :=
  Runs.reach_invariant (fun net => ∀ i, (net.client i).early = []) (fun _ => rfl)
    (fun before event after nothing patient taken i =>
      network_step_early roster before after event nothing patient taken i) reached i

end Reached

/-- In every run of patient clients the chat is an ordered, exactly-once,
echo-free broadcast. -/
theorem patient_chat_is_broadcast (roster : Roster ι) (typed : ι → List UInt8)
    (typedAtServer : List UInt8) (net : Network ι)
    (reached : Runs.Reach (networkStep roster) Patient (.start typed typedAtServer) net) :
    OrderedBroadcast net := by
  have nothing := nothing_early reached
  refine broadcast_without_gaps reached ?_ (fun i _ => nothing i)
  intro i
  have logged := authored_after_early reached i
  rwa [nothing i, List.nil_append] at logged

instance (state : LoopState) : Decidable (TypesChat state) :=
  inferInstanceAs (Decidable (_ ∧ _))

instance (net : Network ι) (event : NetworkEvent ι) : Decidable (Patient net event) :=
  match event with
  | .clientTypes i => inferInstanceAs (Decidable ((net.client i).loop.status = .running →
      TypesChat (net.client i).loop →
      (net.client i).loop.serverAddress ≠ .unassignedSystemAddress))
  | .clientReceives _ => isTrue trivial
  | .clientNotified _ _ => isTrue trivial
  | .serverTypes => isTrue trivial
  | .serverReceives _ => isTrue trivial
  | .serverNotified _ => isTrue trivial
  | .joins _ => isTrue trivial
  | .leaves _ _ _ => isTrue trivial

def twoClients : Roster Bool :=
  { serverBuild := { platform := .x64, debug := true }
    serverAddress := .assigned 167772161 1234
    serverGuid := 1
    build := fun _ => { platform := .win32, debug := true }
    name := fun _ => nameA
    address := fun i => .assigned 167772162 (if i then 50001 else 50000)
    guid := fun i => if i then 3 else 2
    distinct := by
      unfold Function.Injective
      decide }

def linesOf (i : Bool) : List UInt8 :=
  if i then ascii "ban" ++ [10] else ascii "hi" ++ [10] ++ ascii "yo" ++ [10]

def joinedFirst : List (NetworkEvent Bool) :=
  [.joins false, .joins true, .clientReceives false, .clientTypes false, .serverReceives false,
    .serverTypes, .clientReceives true, .clientReceives true, .clientReceives true,
    .clientTypes false, .leaves false 1 0]

theorem joined_first_broadcast :
    ∃ net, OrderedBroadcast net ∧
      (net.client true).displayed = [ascii "[A] : hi", ascii "[Server] : ho"] := by
  have ran : (Runs.follow (networkStep twoClients) Patient
      (.start linesOf (ascii "ho" ++ [10])) joinedFirst).map
        (fun net => (net.client true).displayed) =
      some [ascii "[A] : hi", ascii "[Server] : ho"] := by decide +kernel
  obtain ⟨net, followed, displayed⟩ := Option.map_eq_some_iff.mp ran
  exact ⟨net, patient_chat_is_broadcast twoClients linesOf (ascii "ho" ++ [10]) net
    (Runs.reach_follow joinedFirst .start followed), displayed⟩

def typedFirst : List (NetworkEvent Bool) :=
  [.clientTypes false, .joins false, .clientReceives false, .clientTypes false,
    .serverReceives false]

/-- "hi" is lost, "yo" arrives: the log has the second message alone. -/
theorem early_line_skipped :
    ∃ net, Runs.Reach (networkStep twoClients) (fun _ _ => True) (.start linesOf []) net ∧
      ¬ byAuthor false net.log <+: (net.client false).composed := by
  have ran : (Runs.follow (networkStep twoClients) (fun _ _ => True)
      (.start linesOf []) typedFirst).map
        (fun net => decide (byAuthor false net.log <+: (net.client false).composed)) =
      some false := by decide +kernel
  obtain ⟨net, followed, skipped⟩ := Option.map_eq_some_iff.mp ran
  exact ⟨net, Runs.reach_follow typedFirst .start followed, of_decide_eq_false skipped⟩

end DrakNet
