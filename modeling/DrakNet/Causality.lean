import DrakNet.Delivery

/-!
Replies and what they reply to. Nothing that was logged, composed or displayed
is ever taken back, so the log at one moment is the start of every later log. A
message composed after that moment stands behind all of it, and whoever
displays the message and had joined by then has displayed all of it before.
-/

namespace DrakNet

open CString StarBroadcast

variable {ι : Type} [DecidableEq ι] {roster : Roster ι}

structure ClientGrows (before after : Client) : Prop where
  composed : before.composed <+: after.composed
  early : before.loop.serverAddress ≠ .unassignedSystemAddress → after.early = before.early

structure Grows (before after : Network ι) : Prop where
  log : before.log <+: after.log
  clients : ∀ i, (before.client i).composed <+: (after.client i).composed
  early : ∀ i, byAuthor i before.log ≠ [] → (after.client i).early = (before.client i).early

theorem client_grows_refl (client : Client) : ClientGrows client client :=
  ⟨List.prefix_refl _, fun _ => rfl⟩

omit [DecidableEq ι] in
theorem client_acts_grows (i : ι) (client : Client) (event : LoopEvent) :
    ClientGrows client (clientActs roster i client event) where
  composed := List.prefix_append _ _
  early := by
    intro known
    simp [clientActs, known]

omit [DecidableEq ι] in
theorem client_hears_grows (i : ι) (client : Client) (requests : List Send) :
    ClientGrows client (clientHears roster i client requests) :=
  ⟨List.prefix_refl _, fun _ => rfl⟩

theorem update_grows (net : Network ι) (i : ι) (client : Client)
    (grows : ClientGrows (net.client i) client) (j : ι) :
    ClientGrows (net.client j) ((net.update i client).client j) := by
  by_cases own : j = i
  · subst j
    simpa only [Network.update, Function.update_self] using grows
  · simpa only [Network.update, Function.update_of_ne own] using client_grows_refl (net.client j)

theorem network_step_grows {before after : Network ι} {event : NetworkEvent ι}
    (taken : networkStep roster before event = some after) :
    before.log <+: after.log ∧ ∀ i, ClientGrows (before.client i) (after.client i) := by
  have moved := network_step_moved roster before event after taken
  cases event with
  | clientTypes i =>
      cases moved
      exact ⟨List.prefix_refl _, update_grows before i _ (client_acts_grows i _ _)⟩
  | clientReceives i =>
      rcases moved with ⟨packet, rest, _, _, rfl⟩
      refine ⟨List.prefix_refl _, update_grows before i _ ?_⟩
      have acts : ClientGrows { before.client i with downlink := rest }
          (clientActs roster i { before.client i with downlink := rest } (.receive packet)) :=
        client_acts_grows i _ _
      exact ⟨acts.composed, acts.early⟩
  | clientNotified i packet =>
      rcases moved with ⟨_, _, rfl⟩
      exact ⟨List.prefix_refl _, update_grows before i _ (client_acts_grows i _ _)⟩
  | serverTypes =>
      cases moved
      exact ⟨List.prefix_append _ _, fun j => client_hears_grows j _ _⟩
  | serverReceives i =>
      rcases moved with ⟨packet, rest, _, _, rfl⟩
      refine ⟨List.prefix_append _ _, ?_⟩
      intro j
      have popped := update_grows before i { before.client i with uplink := rest }
        ⟨List.prefix_refl _, fun _ => rfl⟩ j
      exact ⟨popped.composed, popped.early⟩
  | serverNotified packet =>
      rcases moved with ⟨_, rfl⟩
      exact ⟨List.prefix_append _ _, fun j => client_hears_grows j _ _⟩
  | joins i =>
      rcases moved with ⟨_, rfl⟩
      exact ⟨List.prefix_refl _, update_grows before i _ ⟨List.prefix_refl _, fun _ => rfl⟩⟩
  | leaves i keptUp keptDown =>
      rcases moved with ⟨_, rfl⟩
      exact ⟨List.prefix_refl _, update_grows before i _ ⟨List.prefix_refl _, fun _ => rfl⟩⟩

theorem by_author_grows (i : ι) {earlier log : List (Option ι × List UInt8)}
    (start : earlier <+: log) : byAuthor i earlier <+: byAuthor i log := by
  rcases start with ⟨rest, rfl⟩
  refine ⟨byAuthor i rest, ?_⟩
  simp [byAuthor, entries]

theorem logged_known {net : Network ι} {star : State ι (List UInt8)} (started : Reachable star)
    (refines : Refines roster net star) (i : ι) (logged : byAuthor i net.log ≠ []) :
    (net.client i).loop.serverAddress ≠ .unassignedSystemAddress := by
  rcases (refines.clients i).address with ⟨_, nothing⟩ | known
  · have upward := ((reachable_invariant started).members i).upward
    rw [nothing, List.prefix_nil, List.append_eq_nil_iff, refines.log] at upward
    exact absurd upward.1 logged
  · rw [known]
    exact roster.serverAssigned

theorem reached_grows {allowed : Network ι → NetworkEvent ι → Prop} {before after : Network ι}
    (lawful : ∃ star, Reachable star ∧ Refines roster before star)
    (continued : Runs.Reach (networkStep roster) allowed before after) :
    Grows before after ∧ ∃ star, Reachable star ∧ Refines roster after star := by
  induction continued with
  | start => exact ⟨⟨List.prefix_refl _, fun _ => List.prefix_refl _, fun _ _ => rfl⟩, lawful⟩
  | next event _ _ taken ih =>
      rcases ih with ⟨grows, star, started, refines⟩
      rcases network_step_grows taken with ⟨log, clients⟩
      refine ⟨⟨grows.log.trans log, ?_, ?_⟩, lawful_step ⟨star, started, refines⟩ taken⟩
      · intro i
        exact (grows.clients i).trans (clients i).composed
      · intro i logged
        have still : byAuthor i _ ≠ [] := fun nothing => logged
          (List.prefix_nil.mp (nothing ▸ by_author_grows i grows.log))
        rw [(clients i).early (logged_known started refines i still)]
        exact grows.early i logged

section Replies

variable (before after : Network ι) (i : ι) (earlier : List (Option ι × List UInt8))
  (reply : List UInt8)

/-- A reply of client `i` stands behind all it had displayed, in the log and
with everyone who had joined: they display that, perhaps more, then the reply. -/
structure RepliesAfter : Prop where
  logged : before.log <+: earlier
  heard : (before.client i).displayed.map terminated <+:
    foreign i (earlier.drop (before.client i).joined)
  displayed : ∀ k, k ≠ i → (after.client k).joined ≤ before.log.length →
    (foreign k (earlier.drop (after.client k).joined)).length < (after.client k).displayed.length →
    ∃ between, foreign k (before.log.drop (after.client k).joined) ++ between ++ [reply] <+:
      (after.client k).displayed.map terminated

variable {before after i earlier reply}

theorem before_or_within {Entry : Type} {log first earlier : List Entry} {entry : Entry}
    {later : List Entry} (start : first <+: log) (split : log = earlier ++ entry :: later) :
    first <+: earlier ∨ earlier ++ [entry] <+: first := by
  have within : earlier ++ [entry] <+: log := ⟨later, by simp [split]⟩
  rcases Nat.lt_or_ge earlier.length first.length with shorter | longer
  · right
    exact List.prefix_of_prefix_length_le within start (by simp; omega)
  · left
    exact List.prefix_of_prefix_length_le start ((List.prefix_append _ _).trans within) longer

theorem reply_behind (grows : Grows before after)
    (account : (before.client i).early ++ byAuthor i before.log <+: (before.client i).composed)
    {later : List (Option ι × List UInt8)}
    (logged : after.log = earlier ++ (some i, reply) :: later)
    (since : (before.client i).composed.length ≤
      ((after.client i).early ++ byAuthor i earlier).length) :
    before.log <+: earlier := by
  rcases before_or_within grows.log logged with ahead | inside
  · exact ahead
  · have counted := (by_author_grows i inside).length_le
    rw [by_author_own, List.length_append, List.length_singleton] at counted
    have own : byAuthor i before.log ≠ [] := by
      intro nothing
      rw [nothing, List.length_nil] at counted
      omega
    have bound := account.length_le
    rw [grows.early i own] at since
    simp only [List.length_append] at since bound
    omega

theorem foreign_grows (k : ι) (position : Nat) {first log : List (Option ι × List UInt8)}
    (start : first <+: log) :
    foreign k (first.drop position) <+: foreign k (log.drop position) := by
  rcases start with ⟨rest, rfl⟩
  rw [List.drop_append]
  exact ⟨foreign k (rest.drop (position - first.length)), by simp [foreign, entries]⟩

/-- Chat is causal: a message that a client composes once it has displayed
others comes after them, in the log and at every listener. -/
theorem chat_is_causal (roster : Roster ι) {allowed since : Network ι → NetworkEvent ι → Prop}
    (typed : ι → List UInt8) (typedAtServer : List UInt8)
    (reached : Runs.Reach (networkStep roster) allowed (.start typed typedAtServer) before)
    (continued : Runs.Reach (networkStep roster) since before after)
    (later : List (Option ι × List UInt8))
    (logged : after.log = earlier ++ (some i, reply) :: later)
    (composedSince : (before.client i).composed.length ≤
      ((after.client i).early ++ byAuthor i earlier).length) :
    RepliesAfter before after i earlier reply := by
  have lawful := reached_refines reached
  rcases reached_grows lawful continued with ⟨grows, star, started, refines⟩
  have behind := reply_behind grows (authored_after_early reached i) logged composedSince
  refine ⟨behind, ?_, ?_⟩
  · rcases lawful with ⟨first, startedFirst, refinesFirst⟩
    exact (displayed_in_order startedFirst refinesFirst i).trans (foreign_grows i _ behind)
  · intro k other joined shown
    have heard := displayed_in_order started refines k
    rw [logged] at heard
    have position : (after.client k).joined ≤ earlier.length := joined.trans behind.length_le
    rcases behind with ⟨between, rfl⟩
    refine ⟨foreign k between, ?_⟩
    have entry : foreign k (before.log.drop (after.client k).joined) ++ foreign k between ++
        [reply] <+: foreign k ((before.log ++ between ++ (some i, reply) :: later).drop
          (after.client k).joined) := by
      rw [List.drop_append_of_le_length position, List.drop_append_of_le_length joined]
      have own : some i ≠ some k := fun same => other (Option.some.inj same).symm
      refine ⟨foreign k later, ?_⟩
      simp [foreign, entries, own]
    refine List.prefix_of_prefix_length_le entry heard ?_
    rw [List.drop_append_of_le_length joined] at shown
    have counted : foreign k (before.log.drop (after.client k).joined ++ between) =
        foreign k (before.log.drop (after.client k).joined) ++ foreign k between := by
      simp [foreign, entries]
    rw [counted] at shown
    simp only [List.length_append, List.length_singleton, List.length_map] at shown ⊢
    omega

end Replies

def heardFirst : List (NetworkEvent Bool) :=
  [.joins false, .joins true, .clientReceives false, .serverTypes, .clientReceives false]

def repliedThen : List (NetworkEvent Bool) :=
  [.clientTypes false, .serverReceives false, .clientReceives true, .clientReceives true,
    .clientReceives true]

theorem reply_after_server :
    ∃ before after, RepliesAfter (before : Network Bool) after false
      [(none, terminated (ascii "[Server] : ho"))] (terminated (ascii "[A] : hi")) := by
  have ran : ((Runs.follow (networkStep twoClients) (fun _ _ => True)
      (.start linesOf (ascii "ho" ++ [10])) heardFirst).bind fun before =>
        (Runs.follow (networkStep twoClients) (fun _ _ => True) before repliedThen).map fun after =>
          decide (after.log = [(none, terminated (ascii "[Server] : ho"))] ++
              [(some false, terminated (ascii "[A] : hi"))] ∧
            (before.client false).composed.length ≤ ((after.client false).early ++
              byAuthor false [(none, terminated (ascii "[Server] : ho"))]).length)) =
      some true := by decide +kernel
  rcases Option.bind_eq_some_iff.mp ran with ⟨before, first, later⟩
  rcases Option.map_eq_some_iff.mp later with ⟨after, rest, decided⟩
  rcases of_decide_eq_true decided with ⟨logged, since⟩
  exact ⟨before, after, chat_is_causal twoClients linesOf (ascii "ho" ++ [10])
    (Runs.reach_follow heardFirst .start first) (Runs.reach_follow repliedThen .start rest) []
    logged since⟩

end DrakNet
