import Mathlib.Data.List.Basic
import Mathlib.Data.List.Induction
import Mathlib.Logic.Relation

/-!
Runs of machines. `run` feeds a machine with outputs a list of events; `Along`
says that every step of such a run meets a condition in the state it starts
from. `Reach` is the same idea for a partial step function, whose runs may
only take allowed steps, and `reach_simulates` transports reachability along
a simulation relation. `Since` looks back along a history of events. `calls`
is a sequence of calls each of which may fail.
-/

namespace Runs

variable {State Event Output View : Type}

section Outputs

variable (step : State → Event → State × List Output)

def run : State → List Event → State × List Output
  | state, [] => (state, [])
  | state, event :: rest =>
      let first := step state event
      let later := run first.1 rest
      (later.1, first.2 ++ later.2)

theorem run_snoc (state : State) (events : List Event) (event : Event) :
    (run step state (events ++ [event])).1 = (step (run step state events).1 event).1 := by
  induction events generalizing state with
  | nil => rfl
  | cons first rest ih => exact ih (step state first).1

theorem run_append (state : State) (first rest : List Event) :
    run step state (first ++ rest) =
      ((run step (run step state first).1 rest).1,
        (run step state first).2 ++ (run step (run step state first).1 rest).2) := by
  induction first generalizing state with
  | nil => rfl
  | cons event more ih => simp only [List.cons_append, run, ih, List.append_assoc]

def Along (holds : State → Event → Prop) : State → List Event → Prop
  | _, [] => True
  | state, event :: rest => holds state event ∧ Along holds (step state event).1 rest

theorem along_mono {weaker stronger : State → Event → Prop} (state : State) (events : List Event)
    (implied : ∀ state event, stronger state event → weaker state event)
    (along : Along step stronger state events) : Along step weaker state events := by
  induction events generalizing state with
  | nil => trivial
  | cons event rest ih => exact ⟨implied _ _ along.1, ih _ along.2⟩

theorem run_outputs (inv : State → Prop) (allowed : Output → Prop)
    (preserved : ∀ state event, inv state → inv (step state event).1)
    (outputs : ∀ state event, inv state → ∀ output ∈ (step state event).2, allowed output)
    (state : State) (start : inv state) (events : List Event) :
    ∀ output ∈ (run step state events).2, allowed output := by
  induction events generalizing state with
  | nil => simp [run]
  | cons event rest ih =>
      intro output member
      rcases List.mem_append.mp member with now | later
      · exact outputs state event start output now
      · exact ih _ (preserved state event start) output later

/-- Deleting events that change no state and put out nothing visible changes
neither the final state nor what is seen of the run. -/
theorem run_delete (keep : Event → Bool) (view : Output → Option View) (state : State)
    (events : List Event)
    (quiet : Along step (fun state event => keep event = false →
      (step state event).1 = state ∧ (step state event).2.filterMap view = []) state events) :
    (run step state (events.filter keep)).1 = (run step state events).1 ∧
      (run step state (events.filter keep)).2.filterMap view =
        (run step state events).2.filterMap view := by
  induction events generalizing state with
  | nil => exact ⟨rfl, rfl⟩
  | cons event rest ih =>
      have later := ih _ quiet.2
      by_cases kept : keep event = true
      · simp only [List.filter_cons_of_pos kept, run, List.filterMap_append, later, and_self]
      · rcases quiet.1 (by simpa using kept) with ⟨still, silent⟩
        rw [still] at later
        simp only [List.filter_cons_of_neg kept, run, List.filterMap_append, still, silent,
          List.nil_append]
        exact later

end Outputs

section Histories

/-- An event of the history opened, and none after it closed. -/
def Since (opens closes : Event → Prop) (history : List Event) : Prop :=
  ∃ before event after, history = before ++ event :: after ∧ opens event ∧
    ∀ later ∈ after, ¬ closes later

theorem not_since_nil (opens closes : Event → Prop) : ¬ Since opens closes [] := by
  rintro ⟨before, event, after, split, _⟩
  simp at split

theorem since_snoc (opens closes : Event → Prop) (history : List Event) (last : Event) :
    Since opens closes (history ++ [last]) ↔
      opens last ∨ (Since opens closes history ∧ ¬ closes last) := by
  constructor
  · rintro ⟨before, event, after, split, opened, standing⟩
    rcases List.eq_nil_or_concat' after with rfl | ⟨earlier, ending, rfl⟩
    · rcases List.append_inj' split rfl with ⟨_, same⟩
      cases same
      exact Or.inl opened
    · rw [← List.cons_append, ← List.append_assoc] at split
      rcases List.append_inj' split rfl with ⟨shorter, same⟩
      cases same
      right
      constructor
      · refine ⟨before, event, earlier, shorter, opened, ?_⟩
        intro later member
        exact standing later (List.mem_append_left _ member)
      · exact standing last (by simp)
  · rintro (opened | ⟨⟨before, event, after, rfl, opened, standing⟩, stays⟩)
    · exact ⟨history, last, [], rfl, opened, by simp⟩
    · refine ⟨before, event, after ++ [last], by simp, opened, ?_⟩
      intro later member
      rcases List.mem_append.mp member with earlier | ending
      · exact standing later earlier
      · rw [List.mem_singleton.mp ending]
        exact stays

end Histories

section Partial

variable {Other : Type}

inductive Reach (step : State → Event → Option State) (allowed : State → Event → Prop)
    (start : State) : State → Prop where
  | start : Reach step allowed start start
  | next {before after : State} (event : Event) : Reach step allowed start before →
      allowed before event → step before event = some after → Reach step allowed start after

variable {step : State → Event → Option State} {allowed : State → Event → Prop}

theorem reach_invariant {start final : State} (inv : State → Prop) (initial : inv start)
    (preserved : ∀ before event after, inv before → allowed before event →
      step before event = some after → inv after)
    (reached : Reach step allowed start final) : inv final := by
  induction reached with
  | start => exact initial
  | next event _ admitted taken ih => exact preserved _ event _ ih admitted taken

variable (step allowed) in
def follow [∀ state event, Decidable (allowed state event)] : State → List Event → Option State
  | state, [] => some state
  | state, event :: rest =>
      if allowed state event then (step state event).bind fun after => follow after rest else none

theorem reach_trans {start middle final : State} (first : Reach step allowed start middle)
    (later : Reach step allowed middle final) : Reach step allowed start final := by
  induction later with
  | start => exact first
  | next event _ admitted taken ih => exact .next event ih admitted taken

theorem reach_single {before after : State} (event : Event) (admitted : allowed before event)
    (taken : step before event = some after) : Reach step allowed before after :=
  .next event .start admitted taken

theorem reach_follow [∀ state event, Decidable (allowed state event)] {start before final : State}
    (events : List Event) (reached : Reach step allowed start before)
    (followed : follow step allowed before events = some final) :
    Reach step allowed start final := by
  induction events generalizing before with
  | nil =>
      cases followed
      exact reached
  | cons event rest ih =>
      simp only [follow] at followed
      split at followed
      · next admitted =>
          rcases Option.bind_eq_some_iff.mp followed with ⟨after, taken, later⟩
          exact ih (.next event reached admitted taken) later
      · cases followed

/-- Forward simulation: each step is matched by one step of the other system
or by none at all. -/
theorem reach_simulates {next : Other → Other → Prop} {related : State → Other → Prop}
    {start final : State} {other : Other} (initial : related start other)
    (matched : ∀ before event after left, related before left → allowed before event →
      step before event = some after →
      ∃ right, (right = left ∨ next left right) ∧ related after right)
    (reached : Reach step allowed start final) :
    ∃ right, Relation.ReflTransGen next other right ∧ related final right := by
  induction reached with
  | start => exact ⟨other, .refl, initial⟩
  | next event _ admitted taken ih =>
      rcases ih with ⟨left, path, relatedLeft⟩
      rcases matched _ event _ left relatedLeft admitted taken with ⟨right, moved, relatedRight⟩
      rcases moved with rfl | moved
      · exact ⟨right, path, relatedRight⟩
      · exact ⟨right, path.tail moved, relatedRight⟩

/-- A condition on states holds in each that a run goes through. -/
def Everywhere (step : State → Event → Option State) (holds : State → Prop) :
    State → List Event → Prop
  | state, [] => holds state
  | state, event :: rest =>
      holds state ∧ ∀ after, step state event = some after → Everywhere step holds after rest

theorem everywhere_start {holds : State → Prop} {state : State} {events : List Event}
    (everywhere : Everywhere step holds state events) : holds state := by
  cases events with
  | nil => exact everywhere
  | cons event rest => exact everywhere.1

theorem everywhere_implies {first second : State → Prop} (inv : State → Prop)
    (implied : ∀ state, inv state → first state → second state)
    (preserved : ∀ before event after, inv before → step before event = some after →
      first after → inv after)
    (start : State) (initial : inv start) (events : List Event)
    (everywhere : Everywhere step first start events) : Everywhere step second start events := by
  induction events generalizing start with
  | nil => exact implied start initial everywhere
  | cons event rest ih =>
      refine ⟨implied start initial everywhere.1, ?_⟩
      intro after taken
      have later := everywhere.2 after taken
      exact ih after (preserved start event after initial taken (everywhere_start later)) later

end Partial

/-! Queues that can be emptied one item at a time: `go` is how the system may
move, and a queue that is ready gives up its first item and changes no other. -/
section Draining

variable {ι Item : Type} (go : State → State → Prop) (queue : State → ι → List Item)
  (ready : State → ι → Prop)

theorem drain_queue (refl : ∀ state, go state state)
    (trans : ∀ before middle after, go before middle → go middle after → go before after)
    (keeps : ∀ before after i, go before after → ready before i → ready after i)
    (serve : ∀ state i item rest, ready state i → queue state i = item :: rest →
      ∃ after, go state after ∧ queue after i = rest ∧ ∀ j, j ≠ i → queue after j = queue state j)
    (state : State) (i : ι) (isReady : ready state i) :
    ∃ after, go state after ∧ queue after i = [] ∧ ∀ j, j ≠ i → queue after j = queue state j := by
  generalize length : (queue state i).length = count
  induction count generalizing state with
  | zero => exact ⟨state, refl state, List.length_eq_zero_iff.mp length, fun _ _ => rfl⟩
  | succ count ih =>
      rcases List.exists_cons_of_length_eq_add_one length with ⟨item, rest, queued⟩
      rcases serve state i item rest isReady queued with ⟨middle, gone, left, others⟩
      have shorter : (queue middle i).length = count := by
        rw [left]
        rw [queued] at length
        simpa using length
      rcases ih middle (keeps _ _ i gone isReady) shorter with ⟨after, goneOn, empty, same⟩
      refine ⟨after, trans _ _ _ gone goneOn, empty, ?_⟩
      intro j other
      rw [same j other, others j other]

theorem drain_all (refl : ∀ state, go state state)
    (trans : ∀ before middle after, go before middle → go middle after → go before after)
    (keeps : ∀ before after i, go before after → ready before i → ready after i)
    (serve : ∀ state i item rest, ready state i → queue state i = item :: rest →
      ∃ after, go state after ∧ queue after i = rest ∧ ∀ j, j ≠ i → queue after j = queue state j)
    (members : List ι) (state : State) :
    ∃ after, go state after ∧ (∀ i ∈ members, ready state i → queue after i = []) ∧
      ∀ j, queue state j = [] → queue after j = [] := by
  induction members generalizing state with
  | nil => exact ⟨state, refl state, by simp, fun _ empty => empty⟩
  | cons i rest ih =>
      by_cases isReady : ready state i
      · rcases drain_queue go queue ready refl trans keeps serve state i isReady
          with ⟨middle, gone, empty, same⟩
        rcases ih middle with ⟨after, goneOn, drained, stays⟩
        refine ⟨after, trans _ _ _ gone goneOn, ?_, ?_⟩
        · intro j member ready
          rcases List.mem_cons.mp member with rfl | later
          · exact stays j empty
          · exact drained j later (keeps _ _ j gone ready)
        · intro j nothing
          by_cases own : j = i
          · exact stays j (own ▸ empty)
          · exact stays j ((same j own).trans nothing)
      · rcases ih state with ⟨after, gone, drained, stays⟩
        refine ⟨after, gone, ?_, stays⟩
        intro j member ready
        rcases List.mem_cons.mp member with rfl | later
        · exact absurd ready isReady
        · exact drained j later ready

end Draining

section Calls

variable {Spec Call Answer Error : Type}

def calls {m : Type → Type} [Monad m] (serve : State → Call → m (Answer × State)) :
    State → List Call → m (List Answer × State)
  | state, [] => pure ([], state)
  | state, call :: rest => do
      let first ← serve state call
      let later ← calls serve first.2 rest
      pure (first.1 :: later.1, later.2)

theorem calls_append {serve : State → Call → Option (Answer × State)} {state middle last : State}
    {first rest : List Call} {answers more : List Answer}
    (earlier : calls serve state first = some (answers, middle))
    (later : calls serve middle rest = some (more, last)) :
    calls serve state (first ++ rest) = some (answers ++ more, last) := by
  induction first generalizing state answers with
  | nil =>
      cases earlier
      exact later
  | cons call first ih =>
      rcases Option.bind_eq_some_iff.mp earlier with ⟨⟨answer, next⟩, taken, ran⟩
      rcases Option.bind_eq_some_iff.mp ran with ⟨⟨others, ending⟩, followed, done⟩
      cases done
      simp only [List.cons_append, calls, taken, ih followed, bind, Option.bind, pure]

theorem calls_single {serve : State → Call → Option (Answer × State)} {state last : State}
    {call : Call} {answer : Answer} (taken : serve state call = some (answer, last)) :
    calls serve state [call] = some ([answer], last) := by
  simp only [calls, taken, bind, Option.bind, pure]

/-- Along a sequence of calls, as far as it gets, each call meets a condition
on the state it is made in. -/
def Throughout (serve : State → Call → Except Error (Answer × State))
    (holds : State → Call → Prop) : State → List Call → Prop
  | _, [] => True
  | state, call :: rest =>
      holds state call ∧
        ∀ answer after, serve state call = .ok (answer, after) → Throughout serve holds after rest

section Outcomes

variable {serve : State → Call → Except Error (Answer × State)} {holds : State → Call → Prop}
  {state after : State} {call : Call} {answer : Answer}

theorem calls_served (served : serve state call = .ok (answer, after)) (rest : List Call) :
    (∃ answers last, calls serve state (call :: rest) = .ok (answers, last)) ↔
      ∃ answers last, calls serve after rest = .ok (answers, last) := by
  simp only [calls, served, bind, Except.bind]
  rcases calls serve after rest with error | ⟨answers, last⟩ <;> simp [pure, Except.pure]

theorem calls_failed {error : Error} (failed : serve state call = .error error)
    (rest : List Call) : ¬ ∃ answers last, calls serve state (call :: rest) = .ok (answers, last) := by
  rintro ⟨answers, last, ran⟩
  simp [calls, failed, bind, Except.bind] at ran

theorem throughout_served (served : serve state call = .ok (answer, after)) (rest : List Call) :
    Throughout serve holds state (call :: rest) ↔
      holds state call ∧ Throughout serve holds after rest := by
  constructor
  · rintro ⟨now, later⟩
    exact ⟨now, later answer after served⟩
  · rintro ⟨now, later⟩
    refine ⟨now, ?_⟩
    intro other next same
    rw [served] at same
    cases same
    exact later

theorem calls_cons (served : serve state call = .ok (answer, after)) {rest : List Call}
    {answers : List Answer} {last : State} (ran : calls serve after rest = .ok (answers, last)) :
    calls serve state (call :: rest) = .ok (answer :: answers, last) := by
  simp only [calls, served, ran, bind, Except.bind, pure, Except.pure]

theorem calls_cons_ok {start last : State} {rest : List Call} {answers : List Answer}
    (ran : calls serve start (call :: rest) = .ok (answers, last)) :
    ∃ answer after more, serve start call = .ok (answer, after) ∧
      calls serve after rest = .ok (more, last) ∧ answers = answer :: more := by
  rcases served : serve start call with error | ⟨answer, after⟩
  · simp [calls, served, bind, Except.bind] at ran
  · rcases followed : calls serve after rest with error | ⟨more, ending⟩
    · simp [calls, served, followed, bind, Except.bind] at ran
    · simp only [calls, served, followed, bind, Except.bind, pure, Except.pure, Except.ok.injEq,
        Prod.mk.injEq] at ran
      obtain ⟨rfl, rfl⟩ := ran
      exact ⟨answer, after, more, rfl, followed, rfl⟩

/-- Where the specification answers, so does the implementation, and alike, as
long as the condition is met that each call may need besides. -/
theorem calls_refine {specified : Spec → Call → Option (Answer × Spec)}
    (related : State → Spec → Prop)
    (each : ∀ state spec call answer after, related state spec → holds state call →
      specified spec call = some (answer, after) →
      ∃ next, serve state call = .ok (answer, next) ∧ related next after)
    (state : State) (spec final : Spec) (sequence : List Call) (answers : List Answer)
    (start : related state spec) (through : Throughout serve holds state sequence)
    (ran : calls specified spec sequence = some (answers, final)) :
    ∃ last, calls serve state sequence = .ok (answers, last) ∧ related last final := by
  induction sequence generalizing state spec answers with
  | nil =>
      cases ran
      exact ⟨state, rfl, start⟩
  | cons call rest ih =>
      rcases Option.bind_eq_some_iff.mp ran with ⟨⟨answer, after⟩, taken, ran⟩
      rcases Option.bind_eq_some_iff.mp ran with ⟨⟨later, ending⟩, followed, done⟩
      cases done
      rcases each state spec call answer after start through.1 taken
        with ⟨next, served, relatedNext⟩
      rcases ih next after later relatedNext (through.2 answer next served) followed
        with ⟨last, lastServed, relatedLast⟩
      exact ⟨last, calls_cons served lastServed, relatedLast⟩

theorem calls_invariant (inv : State → Prop)
    (each : ∀ state call answer after, inv state → holds state call →
      serve state call = .ok (answer, after) → inv after)
    (start last : State) (initial : inv start) (sequence : List Call) (answers : List Answer)
    (through : Throughout serve holds start sequence)
    (ran : calls serve start sequence = .ok (answers, last)) : inv last := by
  induction sequence generalizing start answers with
  | nil =>
      cases ran
      exact initial
  | cons call rest ih =>
      obtain ⟨answer, after, more, served, followed, _⟩ := calls_cons_ok ran
      obtain ⟨now, later⟩ := (throughout_served served rest).mp through
      exact ih after (each start call answer after initial now served) more later followed

theorem throughout_always (always : ∀ state call, holds state call) (start : State)
    (sequence : List Call) : Throughout serve holds start sequence := by
  induction sequence generalizing start with
  | nil => trivial
  | cons call rest ih => exact ⟨always start call, fun _ after _ => ih after⟩

/-- Where a condition on each call is all it takes to keep an invariant, it is
all it takes in every beginning of a sequence. -/
theorem throughout_iff (inv : State → Prop)
    (each : ∀ state call, inv state →
      (holds state call ↔ ∃ answer after, serve state call = .ok (answer, after) ∧ inv after))
    (start : State) (initial : inv start) (sequence : List Call) :
    Throughout serve holds start sequence ↔
      ∀ made, made <+: sequence →
        ∃ answers last, calls serve start made = .ok (answers, last) ∧ inv last := by
  induction sequence generalizing start with
  | nil =>
      refine ⟨?_, fun _ => trivial⟩
      intro _ made beginning
      rw [List.prefix_nil.mp beginning]
      exact ⟨[], start, rfl, initial⟩
  | cons call rest ih =>
      constructor
      · rintro ⟨now, later⟩ made beginning
        obtain ⟨answer, after, served, kept⟩ := (each start call initial).mp now
        rcases List.prefix_cons_iff.mp beginning with rfl | ⟨more, rfl, further⟩
        · exact ⟨[], start, rfl, initial⟩
        · obtain ⟨answers, last, ran, done⟩ :=
            (ih after kept).mp (later answer after served) more further
          exact ⟨answer :: answers, last, calls_cons served ran, done⟩
      · intro beginnings
        obtain ⟨_, reached, ran, kept⟩ := beginnings [call] (List.prefix_cons_inj call |>.mpr
          List.nil_prefix)
        obtain ⟨answer, after, _, served, stopped, _⟩ := calls_cons_ok ran
        cases stopped
        refine (throughout_served served rest).mpr
          ⟨(each start call initial).mpr ⟨answer, reached, served, kept⟩, ?_⟩
        apply (ih reached kept).mpr
        intro made beginning
        obtain ⟨_, last, followed, done⟩ :=
          beginnings (call :: made) (List.prefix_cons_inj call |>.mpr beginning)
        obtain ⟨other, next, more, again, later, _⟩ := calls_cons_ok followed
        cases served.symm.trans again
        exact ⟨more, last, later, done⟩

/-- What a specification allows the answers to a sequence of calls to be. -/
inductive Trace (next : Spec → Call → Answer → Spec → Prop) :
    Spec → List Call → List Answer → Spec → Prop where
  | nil (spec : Spec) : Trace next spec [] [] spec
  | cons {before middle last : Spec} {call : Call} {answer : Answer} {rest : List Call}
      {answers : List Answer} : next before call answer middle →
      Trace next middle rest answers last →
      Trace next before (call :: rest) (answer :: answers) last

theorem throughout_trace {next : Spec → Call → Answer → Spec → Prop} (inv : State → Prop)
    (view : State → Spec)
    (each : ∀ state call, inv state → holds state call →
      ∃ answer after, serve state call = .ok (answer, after) ∧ inv after ∧
        next (view state) call answer (view after))
    (start : State) (initial : inv start) (sequence : List Call)
    (through : Throughout serve holds start sequence) :
    ∃ answers last, calls serve start sequence = .ok (answers, last) ∧ inv last ∧
      Trace next (view start) sequence answers (view last) := by
  induction sequence generalizing start with
  | nil => exact ⟨[], start, rfl, initial, .nil _⟩
  | cons call rest ih =>
      obtain ⟨now, later⟩ := through
      obtain ⟨answer, after, served, kept, step⟩ := each start call initial now
      obtain ⟨answers, last, ran, done, trace⟩ := ih after kept (later answer after served)
      exact ⟨answer :: answers, last, calls_cons served ran, done, .cons step trace⟩

end Outcomes

end Calls

end Runs
