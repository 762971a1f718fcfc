import DrakNet.Fifo
import DrakNet.Relay

/-!
The control flow of main's loop. A pass asks `_kbhit`, may read and send a
line, and then calls `Receive` until it has no packet left; 'continue' after a
command goes back to the top without a single `Receive`. Meanwhile RakPeer's
thread adds packets. `step` of the process knows nothing of this order: that
it has the same runs is what is shown here, and that every packet is handled
once and in its turn.

The code of RakPeer is not part of the repository. The loop runs on any inbox,
and what it needs of one is `Ordered`.
-/

namespace DrakNet

open CString DataStructures Dialogue

inductive Point where
  | kbhit
  | receive
  deriving DecidableEq

structure MainState (Inbox : Type) where
  point : Point
  loop : LoopState
  packetReturnQueue : Inbox
  deriving DecidableEq

/-- RakPeer's thread adds a packet, or main goes on to its next call; `hit` is
what `_kbhit` answers if it is that. -/
inductive Turn where
  | arrive (packet : Packet)
  | proceed (hit : Bool)
  deriving DecidableEq

/-- What RakPeer does when a packet comes in, and in `Receive`. -/
structure Inbox (m : Type → Type) (Waiting : Type) where
  push : Waiting → Packet → m Waiting
  receive : Waiting → m (Option Packet × Waiting)

variable {m : Type → Type} [Monad m] {Waiting : Type}

/-- What the line typed next makes of the pass; `none` is a pass that waits. -/
def nextPass (peer : Peer) (state : LoopState) : Option Pass :=
  (Dialogue.run (charSource (getsSize peer.build))
    (inputPass peer.build peer.isServer peer.userName state.serverAddress) state.stdin).2.map
      Prod.fst

def receiveNext (inbox : Inbox m Waiting) (peer : Peer) (state : MainState Waiting) :
    m (List Effect × MainState Waiting) := do
  let taken ← inbox.receive state.packetReturnQueue
  match taken.1 with
  | none => pure ([], { state with point := .kbhit, packetReturnQueue := taken.2 })
  | some packet =>
      let handled := receive peer state.loop packet
      pure (handled.2, { state with loop := handled.1, packetReturnQueue := taken.2 })

def proceed (inbox : Inbox m Waiting) (peer : Peer) (state : MainState Waiting) (hit : Bool) :
    m (List Effect × MainState Waiting) :=
  match state.point with
  | .kbhit =>
      if hit && state.loop.stdin ≠ [] then
        let passed := kbhit peer state.loop
        -- goes back to the top of the while loop
        let point := if nextPass peer state.loop = some .continued then .kbhit else .receive
        pure (passed.2, { state with point := point, loop := passed.1 })
      else
        pure ([], { state with point := .receive })
  | .receive => receiveNext inbox peer state

def turn (inbox : Inbox m Waiting) (peer : Peer) (state : MainState Waiting) :
    Turn → m (List Effect × MainState Waiting)
  | .arrive packet => do
      let waiting ← inbox.push state.packetReturnQueue packet
      pure ([], { state with packetReturnQueue := waiting })
  | .proceed hit =>
      -- main has left its loop, or waits for a line for good
      if state.loop.status = .running then proceed inbox peer state hit else pure ([], state)

def mainEntry (stdin : List UInt8) (waiting : Waiting) : MainState Waiting :=
  { point := .kbhit, loop := loopEntry stdin, packetReturnQueue := waiting }

def listInbox : Inbox Option (List Packet) where
  push waiting packet := some (waiting ++ [packet])
  receive waiting := some (waiting.head?, waiting.tail)

/-- A packet that comes in waits behind the others. `Receive` takes the first,
and returns 0 if no packets are waiting. -/
structure Inbox.Ordered {Error : Type} (inbox : Inbox (Except Error) Waiting) (entry : Waiting)
    (Holds : Waiting → List Packet → Prop) : Prop where
  opens : Holds entry []
  push : ∀ waiting packets packet, Holds waiting packets →
    ∃ after, inbox.push waiting packet = .ok after ∧ Holds after (packets ++ [packet])
  receive : ∀ waiting packets, Holds waiting packets →
    ∃ after, inbox.receive waiting = .ok (packets.head?, after) ∧ Holds after packets.tail

def arrivals (turns : List Turn) : List Packet :=
  turns.filterMap fun
    | .arrive packet => some packet
    | .proceed _ => none

def received (events : List LoopEvent) : List Packet :=
  events.filterMap fun
    | .kbhit => none
    | .receive packet => some packet

theorem arrivals_cons (turn : Turn) (rest : List Turn) :
    arrivals (turn :: rest) = arrivals [turn] ++ arrivals rest := by
  cases turn <;> rfl

theorem received_append (first rest : List LoopEvent) :
    received (first ++ rest) = received first ++ received rest :=
  List.filterMap_append

section Turns

variable (inbox : Inbox m Waiting) (peer : Peer) (state : MainState Waiting) (hit : Bool)

theorem turn_stopped (stopped : state.loop.status ≠ .running) :
    turn inbox peer state (.proceed hit) = pure ([], state) := by
  simp [turn, stopped]

theorem turn_types (running : state.loop.status = .running) (point : state.point = .kbhit)
    (typed : (hit && decide (state.loop.stdin ≠ [])) = true) :
    turn inbox peer state (.proceed hit) = pure ((kbhit peer state.loop).2,
      ⟨if nextPass peer state.loop = some .continued then .kbhit else .receive,
        (kbhit peer state.loop).1, state.packetReturnQueue⟩) := by
  simp only [turn, running, proceed, point, typed, ↓reduceIte]

theorem turn_passes (running : state.loop.status = .running) (point : state.point = .kbhit)
    (idle : ¬ (hit && decide (state.loop.stdin ≠ [])) = true) :
    turn inbox peer state (.proceed hit) =
      pure ([], ⟨.receive, state.loop, state.packetReturnQueue⟩) := by
  simp only [turn, running, proceed, point, idle, Bool.false_eq_true, ↓reduceIte]

theorem turn_receives (running : state.loop.status = .running) (point : state.point = .receive) :
    turn inbox peer state (.proceed hit) = receiveNext inbox peer state := by
  simp only [turn, running, proceed, point, ↓reduceIte]

end Turns

section Refinement

variable (peer : Peer)

/-- What one turn of main amounts to: a few events of the process, and a packet
less or more that waits. -/
structure Matched (before after : MainState (List Packet)) (turns : List Turn)
    (effects : List Effect) (events : List LoopEvent) : Prop where
  run : Runs.run (step peer) before.loop events = (after.loop, effects)
  packets : received events ++ after.packetReturnQueue =
    before.packetReturnQueue ++ arrivals turns

theorem matched_trans {before middle after : MainState (List Packet)} {first rest : List Turn}
    {effects more : List Effect} {events later : List LoopEvent}
    (left : Matched peer before middle first effects events)
    (right : Matched peer middle after rest more later) :
    Matched peer before after (first ++ rest) (effects ++ more) (events ++ later) where
  run := by
    rw [Runs.run_append, left.run, right.run]
  packets := by
    rw [received_append, List.append_assoc, right.packets, ← List.append_assoc, left.packets,
      List.append_assoc, arrivals, arrivals, arrivals, List.filterMap_append]

theorem turn_matched (state : MainState (List Packet)) (taken : Turn) :
    ∃ effects after, turn listInbox peer state taken = some (effects, after) ∧
      ∃ events, Matched peer state after [taken] effects events := by
  cases taken with
  | arrive packet => exact ⟨[], _, rfl, [], rfl, by simp [received, arrivals]⟩
  | proceed hit =>
      by_cases running : state.loop.status = .running
      · cases point : state.point with
        | kbhit =>
            by_cases typed : (hit && decide (state.loop.stdin ≠ [])) = true
            · refine ⟨_, _, turn_types listInbox peer state hit running point typed, [.kbhit], ?_, ?_⟩
              · simp [Runs.run, step, running]
              · simp [received, arrivals]
            · refine ⟨_, _, turn_passes listInbox peer state hit running point typed, [], rfl, ?_⟩
              simp [received, arrivals]
        | receive =>
            rw [turn_receives listInbox peer state hit running point, receiveNext, listInbox]
            cases waiting : state.packetReturnQueue with
            | nil => exact ⟨_, _, rfl, [], rfl, by simp [received, arrivals, waiting]⟩
            | cons packet rest =>
                refine ⟨_, _, rfl, [.receive packet], ?_, ?_⟩
                · simp [Runs.run, step, running]
                · simp [received, arrivals, waiting]
      · exact ⟨[], state, turn_stopped listInbox peer state hit running, [], rfl,
          by simp [received, arrivals]⟩

theorem calls_matched (state : MainState (List Packet)) (turns : List Turn) :
    ∃ outputs final, Runs.calls (turn listInbox peer) state turns = some (outputs, final) ∧
      ∃ events, Matched peer state final turns outputs.flatten events := by
  induction turns generalizing state with
  | nil => exact ⟨[], state, rfl, [], rfl, by simp [received, arrivals]⟩
  | cons first rest ih =>
      rcases turn_matched peer state first with ⟨effects, middle, taken, events, matched⟩
      rcases ih middle with ⟨outputs, final, ran, later, matchedLater⟩
      exact ⟨_, final, Runs.calls_append (Runs.calls_single taken) ran, events ++ later,
        matched_trans peer matched matchedLater⟩

section Ordered

variable {Error : Type} {inbox : Inbox (Except Error) Waiting} {entry : Waiting}
  {Holds : Waiting → List Packet → Prop}

structure SameMain (Holds : Waiting → List Packet → Prop) (state : MainState Waiting)
    (list : MainState (List Packet)) : Prop where
  point : state.point = list.point
  loop : state.loop = list.loop
  packets : Holds state.packetReturnQueue list.packetReturnQueue

theorem receive_next_same (ordered : inbox.Ordered entry Holds) {state : MainState Waiting}
    {list : MainState (List Packet)} (same : SameMain Holds state list) {effects : List Effect}
    {after : MainState (List Packet)}
    (received : receiveNext listInbox peer list = some (effects, after)) :
    ∃ next, receiveNext inbox peer state = .ok (effects, next) ∧ SameMain Holds next after := by
  rcases ordered.receive _ _ same.packets with ⟨rest, taken, holds⟩
  unfold receiveNext at received ⊢
  simp only [taken, same.loop, bind, Except.bind]
  simp only [listInbox, bind, Option.bind] at received
  cases waiting : list.packetReturnQueue with
  | nil =>
      simp only [waiting] at received holds
      cases received
      exact ⟨_, rfl, rfl, rfl, holds⟩
  | cons packet others =>
      simp only [waiting, List.head?_cons] at received holds
      cases received
      exact ⟨_, rfl, same.point, rfl, holds⟩

theorem turn_same (ordered : inbox.Ordered entry Holds) {state : MainState Waiting}
    {list : MainState (List Packet)} (same : SameMain Holds state list) {taken : Turn}
    {effects : List Effect} {after : MainState (List Packet)}
    (ran : turn listInbox peer list taken = some (effects, after)) :
    ∃ next, turn inbox peer state taken = .ok (effects, next) ∧ SameMain Holds next after := by
  cases taken with
  | arrive packet =>
      cases ran
      rcases ordered.push _ _ packet same.packets with ⟨waiting, pushed, holds⟩
      refine ⟨{ state with packetReturnQueue := waiting }, ?_, same.point, same.loop, holds⟩
      simp only [turn, pushed, bind, Except.bind]
      rfl
  | proceed hit =>
      by_cases running : list.loop.status = .running
      · have alsoRunning : state.loop.status = .running := by rw [same.loop, running]
        cases point : list.point with
        | kbhit =>
            have alsoPoint : state.point = .kbhit := by rw [same.point, point]
            by_cases typed : (hit && decide (list.loop.stdin ≠ [])) = true
            · rw [turn_types listInbox peer list hit running point typed] at ran
              cases ran
              rw [turn_types _ peer state hit alsoRunning alsoPoint (by rw [same.loop]; exact typed),
                same.loop]
              exact ⟨_, rfl, rfl, rfl, same.packets⟩
            · rw [turn_passes listInbox peer list hit running point typed] at ran
              cases ran
              rw [turn_passes _ peer state hit alsoRunning alsoPoint (by rw [same.loop]; exact typed)]
              exact ⟨_, rfl, rfl, same.loop, same.packets⟩
        | receive =>
            have alsoPoint : state.point = .receive := by rw [same.point, point]
            rw [turn_receives listInbox peer list hit running point] at ran
            rw [turn_receives _ peer state hit alsoRunning alsoPoint]
            exact receive_next_same peer ordered same ran
      · rw [turn_stopped listInbox peer list hit running] at ran
        cases ran
        exact ⟨state, turn_stopped _ peer state hit (by rw [same.loop]; exact running), same⟩

theorem entry_same (ordered : inbox.Ordered entry Holds) (stdin : List UInt8) :
    SameMain Holds (mainEntry stdin entry) (mainEntry stdin []) :=
  ⟨rfl, rfl, ordered.opens⟩

theorem calls_same (ordered : inbox.Ordered entry Holds) {state : MainState Waiting}
    {list final : MainState (List Packet)} (same : SameMain Holds state list) {turns : List Turn}
    {outputs : List (List Effect)}
    (ran : Runs.calls (turn listInbox peer) list turns = some (outputs, final)) :
    ∃ last, Runs.calls (turn inbox peer) state turns = .ok (outputs, last) ∧
      SameMain Holds last final := by
  refine Runs.calls_refine (SameMain Holds) ?_ state list final turns outputs same
    (Runs.throughout_always (fun _ _ => trivial) state turns) ran
  intro state list taken effects after same _ answered
  exact turn_same peer ordered same answered

/-- However RakPeer's thread and main take turns, main's loop does what a run
of the process does. Its events are the lines typed and, each once and in the
order of their arrival, the packets that no longer wait. -/
theorem main_loop_refines (ordered : inbox.Ordered entry Holds) (stdin : List UInt8)
    (turns : List Turn) :
    ∃ outputs final, Runs.calls (turn inbox peer) (mainEntry stdin entry) turns =
        .ok (outputs, final) ∧
      ∃ events waiting,
        Runs.run (step peer) (loopEntry stdin) events = (final.loop, outputs.flatten) ∧
        Holds final.packetReturnQueue waiting ∧
        received events ++ waiting = arrivals turns := by
  rcases calls_matched peer (mainEntry stdin []) turns with ⟨outputs, list, ran, events, matched⟩
  rcases calls_same peer ordered (entry_same ordered stdin) ran with ⟨final, finalRan, same⟩
  refine ⟨outputs, final, finalRan, events, list.packetReturnQueue, ?_, same.packets, ?_⟩
  · rw [same.loop]
    exact matched.run
  · exact matched.packets

end Ordered

/-- An inbox that is kept in a `DataStructures::Queue`, the type RakPeer.h has
for its `packetReturnQueue`. -/
def ofQueue (build : Build) : Inbox (Except Failure) (Queue Packet) where
  push queue packet := queue.push packet
  receive queue := do
    if queue.isEmpty then
      return (none, queue)
    else
      let popped ← queue.pop build
      return (some popped.1, popped.2)

theorem queue_ordered (build : Build) :
    (ofQueue build).Ordered Queue.empty Queue.Represents where
  opens := Queue.empty_represents
  push queue packets packet represents := by
    rcases Queue.push_represents represents packet with ⟨after, pushed, afterRepresents, _⟩
    exact ⟨after, pushed, afterRepresents⟩
  receive queue packets represents := by
    cases packets with
    | nil =>
        refine ⟨queue, ?_, represents⟩
        simp [ofQueue, Queue.is_empty_represents represents, pure, Except.pure]
    | cons packet rest =>
        rcases Queue.pop_represents build represents with ⟨after, popped, afterRepresents, _⟩
        refine ⟨after, ?_, afterRepresents⟩
        simp [ofQueue, Queue.is_empty_represents represents, popped, bind, Except.bind, pure,
          Except.pure]

def debugServer : Peer := serverPeer { platform := .x64, debug := true }

theorem main_loop_refines_lost_connection :
    ∃ outputs final, Runs.calls (turn (ofQueue debugServer.build) debugServer)
        (mainEntry (ascii "hi" ++ [newline]) Queue.empty)
        [.proceed true, .arrive lostConnection, .proceed false] = .ok (outputs, final) ∧
      ∃ events waiting,
        Runs.run (step debugServer) (loopEntry (ascii "hi" ++ [newline])) events =
          (final.loop, outputs.flatten) ∧
        final.packetReturnQueue.Represents waiting ∧
        received events ++ waiting = [lostConnection] :=
  main_loop_refines debugServer (queue_ordered _) _ _

end Refinement

section Completeness

variable (peer : Peer)

theorem reaches_point (state : MainState (List Packet)) (running : state.loop.status = .running)
    (drained : state.packetReturnQueue = []) (point : Point) :
    ∃ turns outputs, Runs.calls (turn listInbox peer) state turns =
      some (outputs, { state with point := point }) ∧ outputs.flatten = [] := by
  rcases state with ⟨here, loop, waiting⟩
  cases drained
  by_cases same : here = point
  · cases same
    exact ⟨[], [], rfl, rfl⟩
  · refine ⟨[.proceed false], [[]], ?_, rfl⟩
    have moved : turn listInbox peer ⟨here, loop, []⟩ (.proceed false) =
        some ([], ⟨point, loop, []⟩) := by
      cases here with
      | kbhit =>
          cases point with
          | kbhit => exact absurd rfl same
          | receive => exact turn_passes listInbox peer _ false running rfl (by simp)
      | receive =>
          cases point with
          | kbhit => exact turn_receives listInbox peer _ false running rfl
          | receive => exact absurd rfl same
    exact Runs.calls_single moved

theorem event_turns (state : MainState (List Packet)) (drained : state.packetReturnQueue = [])
    (event : LoopEvent) :
    ∃ turns outputs final, Runs.calls (turn listInbox peer) state turns = some (outputs, final) ∧
      step peer state.loop event = (final.loop, outputs.flatten) ∧
      final.packetReturnQueue = [] := by
  by_cases running : state.loop.status = .running
  · cases event with
    | kbhit =>
        by_cases typed : state.loop.stdin = []
        -- no key is hit, and the process does nothing either
        · refine ⟨[], [], state, rfl, ?_, drained⟩
          simp [step, running, kbhit, typed]
        · rcases reaches_point peer state running drained .kbhit with ⟨turns, outputs, ran, silent⟩
          have hit : (true && decide (state.loop.stdin ≠ [])) = true := by simpa using typed
          have last := Runs.calls_single (turn_types listInbox peer { state with point := .kbhit }
            true running rfl hit)
          refine ⟨_, _, _, Runs.calls_append ran last, ?_, drained⟩
          simp [step, running, silent]
    | receive packet =>
        rcases reaches_point peer state running drained .receive with ⟨turns, outputs, ran, silent⟩
        have arrived : turn listInbox peer { state with point := .receive } (.arrive packet) =
            some ([], ⟨.receive, state.loop, [packet]⟩) := by
          simp [turn, listInbox, drained]
        have taken : turn listInbox peer ⟨.receive, state.loop, [packet]⟩ (.proceed false) =
            some ((receive peer state.loop packet).2,
              ⟨.receive, (receive peer state.loop packet).1, []⟩) :=
          turn_receives listInbox peer _ false running rfl
        refine ⟨_, _, _, Runs.calls_append (Runs.calls_append ran (Runs.calls_single arrived))
          (Runs.calls_single taken), ?_, rfl⟩
        simp [step, running, silent]
  · exact ⟨[], [], state, rfl, stopped_step peer state.loop running event, drained⟩

theorem run_turns (state : MainState (List Packet)) (drained : state.packetReturnQueue = [])
    (events : List LoopEvent) :
    ∃ turns outputs final, Runs.calls (turn listInbox peer) state turns = some (outputs, final) ∧
      Runs.run (step peer) state.loop events = (final.loop, outputs.flatten) := by
  induction events generalizing state with
  | nil => exact ⟨[], [], state, rfl, rfl⟩
  | cons event rest ih =>
      rcases event_turns peer state drained event
        with ⟨turns, outputs, middle, ran, taken, middleDrained⟩
      rcases ih middle middleDrained with ⟨more, others, final, ranLater, later⟩
      refine ⟨_, _, final, Runs.calls_append ran ranLater, ?_⟩
      simp only [Runs.run, taken, later, List.flatten_append]

/-- Every run of the process is a run of main's loop, for some order of turns. -/
theorem main_loop_complete {Error : Type} {inbox : Inbox (Except Error) Waiting}
    {entry : Waiting} {Holds : Waiting → List Packet → Prop}
    (ordered : inbox.Ordered entry Holds) (stdin : List UInt8) (events : List LoopEvent) :
    ∃ turns outputs final, Runs.calls (turn inbox peer) (mainEntry stdin entry) turns =
        .ok (outputs, final) ∧
      Runs.run (step peer) (loopEntry stdin) events = (final.loop, outputs.flatten) := by
  rcases run_turns peer (mainEntry stdin []) rfl events with ⟨turns, outputs, list, ran, same⟩
  rcases calls_same peer ordered (entry_same ordered stdin) ran with ⟨final, finalRan, sameMain⟩
  refine ⟨turns, outputs, final, finalRan, ?_⟩
  rw [sameMain.loop]
  exact same

theorem main_loop_complete_lost_connection :
    ∃ turns outputs final, Runs.calls (turn (ofQueue debugServer.build) debugServer)
        (mainEntry (ascii "hi" ++ [newline]) Queue.empty) turns = .ok (outputs, final) ∧
      Runs.run (step debugServer) (loopEntry (ascii "hi" ++ [newline]))
        [.receive lostConnection, .kbhit] = (final.loop, outputs.flatten) :=
  main_loop_complete debugServer (queue_ordered _) _ _

end Completeness

section Backlog

variable (peer : Peer)

theorem chat_sent_pass (state : LoopState) (chat : TypesChat state) :
    nextPass peer state = some .sent := by
  have sent := send_line_ok peer state.serverAddress (nextLine state.stdin)
    (gets_text_nul_free _ _) (next_line_fits state.stdin)
  have handled : handleLine peer.build peer.isServer peer.userName state.serverAddress
      (nextLine state.stdin) =
        .act (.send (typedSend peer state.serverAddress (nextLine state.stdin))) (.done .sent) := by
    unfold handleLine
    rw [check_chat _ chat.2]
    simp only [bind, Program.bind, sent]
    rfl
  rw [nextPass, input_pass_run _ _ _ _ _ chat.1, handled]
  rfl

/-- Nothing waits that was there before a certain turn, or main is still on
its way through the packets. -/
def CaughtUp (since : List Packet) (state : MainState (List Packet)) : Prop :=
  state.packetReturnQueue <:+ since ∨ state.point = .receive

theorem turn_caught_up {since : List Packet} {state after : MainState (List Packet)} {taken : Turn}
    {effects : List Effect} (caughtUp : CaughtUp since state)
    (ran : turn listInbox peer state taken = some (effects, after)) :
    CaughtUp (since ++ arrivals [taken]) after := by
  cases taken with
  | arrive packet =>
      cases ran
      rcases caughtUp with ⟨handled, rfl⟩ | receiving
      · exact Or.inl ⟨handled, by simp [arrivals]⟩
      · exact Or.inr receiving
  | proceed hit =>
      have none : since ++ arrivals [.proceed hit] = since := by simp [arrivals]
      rw [none]
      by_cases running : state.loop.status = .running
      · cases point : state.point with
        | kbhit =>
            have waiting : state.packetReturnQueue <:+ since := by
              simpa [CaughtUp, point] using caughtUp
            by_cases typed : (hit && decide (state.loop.stdin ≠ [])) = true
            · rw [turn_types listInbox peer state hit running point typed] at ran
              cases ran
              exact Or.inl waiting
            · rw [turn_passes listInbox peer state hit running point typed] at ran
              cases ran
              exact Or.inl waiting
        | receive =>
            rw [turn_receives listInbox peer state hit running point, receiveNext, listInbox] at ran
            cases waiting : state.packetReturnQueue with
            | nil =>
                simp only [waiting] at ran
                cases ran
                exact Or.inl List.nil_suffix
            | cons packet rest =>
                simp only [waiting] at ran
                cases ran
                exact Or.inr point
      · rw [turn_stopped listInbox peer state hit running] at ran
        cases ran
        exact caughtUp

theorem calls_caught_up {since : List Packet} {state final : MainState (List Packet)}
    {turns : List Turn} {outputs : List (List Effect)} (caughtUp : CaughtUp since state)
    (ran : Runs.calls (turn listInbox peer) state turns = some (outputs, final)) :
    CaughtUp (since ++ arrivals turns) final := by
  induction turns generalizing state since outputs with
  | nil =>
      cases ran
      simpa [arrivals] using caughtUp
  | cons taken rest ih =>
      rcases Option.bind_eq_some_iff.mp ran with ⟨⟨effects, middle⟩, first, ran⟩
      rcases Option.bind_eq_some_iff.mp ran with ⟨⟨others, ending⟩, later, done⟩
      cases done
      have middleCaughtUp := turn_caught_up peer caughtUp first
      rw [arrivals_cons, ← List.append_assoc]
      exact ih middleCaughtUp later

/-- A chat line leaves main in front of its first `Receive`. -/
theorem chat_caught_up {state final : MainState (List Packet)} {turns : List Turn}
    {outputs : List (List Effect)} (asks : state.point = .kbhit)
    (running : state.loop.status = .running) (chat : TypesChat state.loop)
    (ran : Runs.calls (turn listInbox peer) state (.proceed true :: turns) =
      some (outputs, final)) :
    CaughtUp (arrivals turns) final := by
  have typed : (true && decide (state.loop.stdin ≠ [])) = true := by simpa using chat.1
  rw [Runs.calls, turn_types listInbox peer state true running asks typed,
    chat_sent_pass peer state.loop chat] at ran
  rcases Option.bind_eq_some_iff.mp ran with ⟨taken, sent, ran⟩
  cases sent
  rcases Option.bind_eq_some_iff.mp ran with ⟨⟨rest, ending⟩, later, done⟩
  cases done
  have receiving : CaughtUp [] ⟨.receive, (kbhit peer state.loop).1, state.packetReturnQueue⟩ :=
    Or.inr rfl
  simpa using calls_caught_up peer receiving later

/-- Between a chat line and the next question to the keyboard lies every packet
that had arrived before the chat line was sent. -/
theorem backlog_handled {Error : Type} {inbox : Inbox (Except Error) Waiting} {entry : Waiting}
    {Holds : Waiting → List Packet → Prop} (ordered : inbox.Ordered entry Holds)
    (stdin : List UInt8) (before middle : List Turn) {outputs others : List (List Effect)}
    {first second : MainState Waiting}
    (reached : Runs.calls (turn inbox peer) (mainEntry stdin entry) before = .ok (outputs, first))
    (asks : first.point = .kbhit) (running : first.loop.status = .running)
    (chat : TypesChat first.loop)
    (continued : Runs.calls (turn inbox peer) first (.proceed true :: middle) =
      .ok (others, second))
    (asksAgain : second.point = .kbhit) :
    ∃ events, Runs.run (step peer) (loopEntry stdin) events =
        (second.loop, (outputs ++ others).flatten) ∧
      arrivals before <+: received events := by
  rcases calls_matched peer (mainEntry stdin []) before with ⟨left, list, ran, events, matched⟩
  rcases calls_same peer ordered (entry_same ordered stdin) ran with ⟨last, lastRan, same⟩
  cases lastRan.symm.trans reached
  rcases calls_matched peer list (.proceed true :: middle)
    with ⟨right, final, ranOn, later, matchedLater⟩
  rcases calls_same peer ordered same ranOn with ⟨last, lastRan, sameFinal⟩
  cases lastRan.symm.trans continued
  have both := matched_trans peer matched matchedLater
  have caughtUp := chat_caught_up peer (same.point ▸ asks) (same.loop ▸ running)
    (same.loop ▸ chat) ranOn
  rcases caughtUp with ⟨handled, split⟩ | receiving
  · refine ⟨events ++ later, ?_, handled, ?_⟩
    · rw [sameFinal.loop, List.flatten_append]
      exact both.run
    · have there : arrivals (before ++ .proceed true :: middle) =
          arrivals before ++ arrivals middle := by
        simp [arrivals]
      have packets : received (events ++ later) ++ final.packetReturnQueue =
          arrivals before ++ arrivals middle := by
        rw [← there]
        exact both.packets
      rw [← split, ← List.append_assoc] at packets
      exact (List.append_cancel_right packets).symm
  · rw [sameFinal.point, receiving] at asksAgain
    cases asksAgain

theorem backlog_handled_lost_connection :
    ∃ events, Runs.run (step debugServer) (loopEntry (ascii "hi" ++ [newline])) events =
        (loopEntry [], [
          .send (typedSend debugServer .unassignedSystemAddress (ascii "hi")),
          .printf "ID_CONNECTION_LOST from %s\n" [.address lostConnection.systemAddress]]) ∧
      [lostConnection] <+: received events := by
  have reached : Runs.calls (turn (ofQueue debugServer.build) debugServer)
      (mainEntry (ascii "hi" ++ [newline]) Queue.empty) [.arrive lostConnection] =
        .ok ([[]], mainEntry (ascii "hi" ++ [newline])
          ⟨some lostConnection :: List.replicate 15 none, 0, 1, false⟩) := rfl
  have continued : Runs.calls (turn (ofQueue debugServer.build) debugServer)
      (mainEntry (ascii "hi" ++ [newline]) ⟨some lostConnection :: List.replicate 15 none, 0, 1, false⟩)
      [.proceed true, .proceed false, .proceed false] =
        .ok ([[.send (typedSend debugServer .unassignedSystemAddress (ascii "hi"))],
          [.printf "ID_CONNECTION_LOST from %s\n" [.address lostConnection.systemAddress]], []],
          mainEntry [] ⟨some lostConnection :: List.replicate 15 none, 1, 1, false⟩) := by
    decide +kernel
  exact backlog_handled debugServer (queue_ordered _) _ _ _ reached rfl rfl ⟨by decide, by decide⟩ continued rfl

end Backlog

end DrakNet
