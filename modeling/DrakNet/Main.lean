import DrakNet.StartUp

/-!
main from its first prompt to the end of a run: the start-up on the bytes that
are typed, then the loop on what start-up has left of them. `main_run_cases`
says what a run can be; the results are about its effects and its faults.
-/

namespace DrakNet

open CString Dialogue

inductive Ending where
  | waiting
  | halted (halt : Halt)
  | looping (state : LoopState)
  deriving DecidableEq

def mainRun (build : Build) (answers : RakPeerAnswers) (stdin : List UInt8)
    (events : List LoopEvent) : Ending × List Effect :=
  match Dialogue.run (charSource (getsSize build)) (startUp build answers) stdin with
  | (marks, none) => (.waiting, acts marks)
  | (marks, some (.error halt, _)) => (.halted halt, acts marks)
  | (marks, some (.ok setup, rest)) =>
      if terminated : 0 ∈ setup.userName.bytes then
        let ran := Runs.run (step ⟨build, setup.isServer, setup.userName, terminated⟩)
          (loopEntry rest) events
        (.looping ran.1, acts marks ++ ran.2)
      -- strncpy would read past userName, see `loop_setup_terminated`
      else (.halted (.fault .readPast), acts marks)

theorem loop_setup_terminated {setup : Setup} (reached : LoopSetup setup) :
    0 ∈ setup.userName.bytes := by
  rcases reached with ⟨_, named⟩ | ⟨_, name, named⟩
  · rw [named]
    decide
  · rw [named]
    exact name.terminated

def loopPeer (build : Build) (setup : Setup) (reached : LoopSetup setup) : Peer :=
  ⟨build, setup.isServer, setup.userName, loop_setup_terminated reached⟩

section Cases

variable (build : Build) (answers : RakPeerAnswers) (stdin : List UInt8) (events : List LoopEvent)

def startRun : List (Mark Site Effect) × Option (Except Halt Setup × List UInt8) :=
  Dialogue.run (charSource (getsSize build)) (startUp build answers) stdin

theorem start_run_explained :
    StartedUp build answers (startRun build answers stdin).1
      ((startRun build answers stdin).2.map Prod.fst) :=
  run_explained _ (char_source_delivered build) _ (start_up_explained build answers) stdin

inductive MainRan : Ending × List Effect → Prop where
  | waits (marks : List (Mark Site Effect)) (ran : startRun build answers stdin = (marks, none)) :
      MainRan (.waiting, acts marks)
  | halts (marks : List (Mark Site Effect)) (halt : Halt) (rest : List UInt8)
      (ran : startRun build answers stdin = (marks, some (.error halt, rest))) :
      MainRan (.halted halt, acts marks)
  | loops (marks : List (Mark Site Effect)) (setup : Setup) (rest : List UInt8)
      (reached : LoopSetup setup)
      (ran : startRun build answers stdin = (marks, some (.ok setup, rest))) :
      MainRan (.looping (Runs.run (step (loopPeer build setup reached)) (loopEntry rest) events).1,
        acts marks ++ (Runs.run (step (loopPeer build setup reached)) (loopEntry rest) events).2)

theorem main_run_cases :
    MainRan build answers stdin events (mainRun build answers stdin events) := by
  unfold mainRun
  cases ran : Dialogue.run (charSource (getsSize build)) (startUp build answers) stdin with
  | mk marks ending =>
      cases ending with
      | none => exact .waits marks ran
      | some ending =>
          rcases ending with ⟨result, rest⟩
          cases result with
          | error halt => exact .halts marks halt rest ran
          | ok setup =>
              have reached : LoopSetup setup :=
                started_loop build answers stdin rest setup (by rw [ran])
              simp only [dif_pos (loop_setup_terminated reached)]
              exact .loops marks setup rest reached ran

end Cases

section Faults

def Unharmed : Ending → Prop
  | .waiting => True
  | .halted (.exit _) => True
  | .halted (.fault _) => False
  | .looping state => ¬ Faulted state

variable (build : Build) (answers : RakPeerAnswers) (stdin : List UInt8) (events : List LoopEvent)

/-- main meets no error outcome, from its first prompt on, exactly when start-up
is safe and, where the loop is entered, every packet received in it is. -/
theorem main_fault_free_iff :
    Unharmed (mainRun build answers stdin events).1 ↔
      StartsSafely build answers (startRun build answers stdin).1 ∧
      ∀ setup rest (reached : LoopSetup setup),
        (startRun build answers stdin).2 = some (.ok setup, rest) →
        Runs.Along (step (loopPeer build setup reached)) ReceivesSafely (loopEntry rest) events := by
  have started := start_run_explained build answers stdin
  have safety := start_up_fault_iff build answers started
  have outcome := main_run_cases build answers stdin events
  generalize mainRun build answers stdin events = result at outcome
  cases outcome with
  | waits marks ran =>
      rw [ran] at safety
      simpa [Unharmed, ran] using safety
  | halts marks halt rest ran =>
      rw [ran] at safety
      cases halt <;> simpa [Unharmed, ran] using safety
  | loops marks setup rest reached ran =>
      rw [ran] at safety
      have start : StartsSafely build answers marks := by simpa using safety
      have loop := run_fault_iff (loopPeer build setup reached) (loopEntry rest)
        (by simp [Faulted, loopEntry]) events
      constructor
      · intro unharmed
        refine ⟨by simpa [ran] using start, ?_⟩
        intro other left alsoReached same
        rw [ran] at same
        cases same
        exact loop.mp unharmed
      · rintro ⟨_, safely⟩
        exact loop.mpr (safely setup rest reached (by rw [ran]))

end Faults

end DrakNet
