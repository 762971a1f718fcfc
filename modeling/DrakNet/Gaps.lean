import DrakNet.Causality

/-!
Which runs are an ordered broadcast in every state: those in which no client is
ever inside that has composed a line before it knew its server. What such a
client composes later is logged behind a gap. One that is not connected may type
as early as it likes: nothing of it is logged.
-/

namespace DrakNet

open StarBroadcast

variable {ι : Type} [DecidableEq ι] {roster : Roster ι}

def Gapless (net : Network ι) : Prop :=
  ∀ i, (net.client i).phase = .inside → (net.client i).early = []

/-- Nothing of the client is logged or on its way to the server. -/
def Unsent (net : Network ι) (i : ι) : Prop :=
  byAuthor i net.log = [] ∧ (net.client i).uplink = []

theorem update_unsent {net : Network ι} {i j : ι} {client : Client} (unsent : Unsent net i)
    (own : i = j → (net.client j).uplink = [] → client.uplink = []) :
    Unsent (net.update j client) i := by
  refine ⟨unsent.1, ?_⟩
  by_cases same : i = j
  · subst j
    simpa only [Network.update, Function.update_self] using own rfl unsent.2
  · simpa only [Network.update, Function.update_of_ne same] using unsent.2

theorem client_acts_unsent {net : Network ι} {i j : ι} (client : Client) (event : LoopEvent)
    (sameUplink : client.uplink = (net.client j).uplink)
    (away : ((net.update j (clientActs roster j client event)).client i).phase ≠ .inside)
    (unsent : Unsent net i) : Unsent (net.update j (clientActs roster j client event)) i := by
  apply update_unsent unsent
  rintro rfl nothing
  have absent : client.phase ≠ .inside := by simpa [Network.update, clientActs] using away
  simp [clientActs, Client.reached, absent, sameUplink, nothing]

theorem server_acts_unsent {net : Network ι} {i : ι} {author : Option ι} (other : author ≠ some i)
    (event : LoopEvent) (unsent : Unsent net i) :
    Unsent (serverActs roster net author event) i := by
  refine ⟨?_, unsent.2⟩
  have logged := unsent.1
  simp only [byAuthor, entries, serverActs, List.filter_append, List.map_append,
    List.append_eq_nil_iff] at logged ⊢
  refine ⟨logged, ?_⟩
  simp [List.filter_map, other]

theorem network_step_unsent {before after : Network ι} {event : NetworkEvent ι} {i : ι}
    (taken : networkStep roster before event = some after) (away : (after.client i).phase ≠ .inside)
    (unsent : Unsent before i) : Unsent after i := by
  have moved := network_step_moved roster before event after taken
  cases event with
  | clientTypes j =>
      cases moved
      exact client_acts_unsent _ .kbhit rfl away unsent
  | clientReceives j =>
      rcases moved with ⟨packet, rest, _, _, rfl⟩
      exact client_acts_unsent { before.client j with downlink := rest } (.receive packet) rfl away
        unsent
  | clientNotified j packet =>
      rcases moved with ⟨_, _, rfl⟩
      exact client_acts_unsent _ (.receive packet) rfl away unsent
  | serverTypes =>
      cases moved
      exact server_acts_unsent (Option.some_ne_none i).symm .kbhit unsent
  | serverReceives j =>
      rcases moved with ⟨packet, rest, queued, _, rfl⟩
      have other : some j ≠ some i := by
        intro same
        cases same
        rw [unsent.2] at queued
        cases queued
      apply server_acts_unsent other
      apply update_unsent unsent
      rintro rfl
      exact absurd rfl other
  | serverNotified packet =>
      rcases moved with ⟨_, rfl⟩
      exact server_acts_unsent (Option.some_ne_none i).symm (.receive packet) unsent
  | joins j =>
      rcases moved with ⟨_, rfl⟩
      exact update_unsent unsent fun _ nothing => nothing
  | leaves j keptUp keptDown =>
      rcases moved with ⟨_, rfl⟩
      apply update_unsent unsent
      intro _ nothing
      simp [nothing]

section Runs

def Spared (net : Network ι) : Prop :=
  ∀ i, (net.client i).early = [] ∨ Unsent net i

theorem unsent_without_address {net : Network ι} {star : State ι (List UInt8)}
    (started : Reachable star) (refines : Refines roster net star) (i : ι)
    (unknown : (net.client i).loop.serverAddress = .unassignedSystemAddress) : Unsent net i := by
  have nothing : (star.member i).offered = [] := by
    rcases (refines.clients i).address with ⟨_, nothing⟩ | known
    · exact nothing
    · exact absurd (known.symm.trans unknown) roster.serverAssigned
  have upward := ((reachable_invariant started).members i).upward
  rw [nothing, List.prefix_nil, List.append_eq_nil_iff, refines.log, (refines.clients i).up,
    List.map_eq_nil_iff] at upward
  exact upward

theorem network_step_spared {before after : Network ι} {event : NetworkEvent ι}
    {star : State ι (List UInt8)} (started : Reachable star) (refines : Refines roster before star)
    (taken : networkStep roster before event = some after) (gapless : Gapless after)
    (spared : Spared before) : Spared after := by
  intro i
  by_cases inside : (after.client i).phase = .inside
  · exact Or.inl (gapless i inside)
  · by_cases unsent : Unsent before i
    · exact Or.inr (network_step_unsent taken inside unsent)
    · have known : (before.client i).loop.serverAddress ≠ .unassignedSystemAddress := by
        intro unknown
        exact unsent (unsent_without_address started refines i unknown)
      left
      rw [((network_step_grows taken).2 i).early known]
      exact (spared i).resolve_right unsent

/-- A run keeps to the ordered broadcast in every state exactly when no client
is ever inside with a line it composed too early. -/
theorem broadcast_everywhere_iff (roster : Roster ι) (typed : ι → List UInt8)
    (typedAtServer : List UInt8) (events : List (NetworkEvent ι)) :
    Runs.Everywhere (networkStep roster) OrderedBroadcast (.start typed typedAtServer) events ↔
      Runs.Everywhere (networkStep roster) Gapless (.start typed typedAtServer) events := by
  constructor
  · apply Runs.everywhere_implies
      (Runs.Reach (networkStep roster) (fun _ _ => True) (.start typed typedAtServer))
    · intro net reached broadcast i present
      exact (carried_iff_nothing_early reached i present).mp (broadcast.carried i present)
    · intro before event after reached taken _
      exact .next event reached trivial taken
    · exact .start
  · apply Runs.everywhere_implies fun net =>
      Runs.Reach (networkStep roster) (fun _ _ => True) (.start typed typedAtServer) net ∧ Spared net
    · rintro net ⟨reached, spared⟩ gapless
      refine broadcast_without_gaps reached ?_ gapless
      intro i
      have logged := authored_after_early reached i
      rcases spared i with nothing | unsent
      · rwa [nothing, List.nil_append] at logged
      · rw [unsent.1]
        exact List.nil_prefix
    · rintro before event after ⟨reached, spared⟩ taken gapless
      rcases reached_refines reached with ⟨star, started, refines⟩
      exact ⟨.next event reached trivial taken,
        network_step_spared started refines taken gapless spared⟩
    · exact ⟨.start, fun i => Or.inl rfl⟩

end Runs

end DrakNet
