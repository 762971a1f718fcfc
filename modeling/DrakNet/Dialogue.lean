import DrakNet.CString

/-!
Programs that talk to a terminal. A program asks for one line at a named site
and continues with the text it is handed, or performs an act and goes on. It
does not say where its lines come from: `charSource` reads them with bounded
`gets` calls from a stream of bytes, `lineSource` hands over one whole typed
line for each question. `framed_iff` says exactly when the two agree.
-/

namespace Dialogue

open CString

inductive Program (Site Act Result : Type) where
  | done (result : Result)
  | gets (site : Site) (next : List UInt8 → Program Site Act Result)
  | act (request : Act) (next : Program Site Act Result)

variable {Site Act Input Result Other : Type}

def Program.bind (program : Program Site Act Result)
    (next : Result → Program Site Act Other) : Program Site Act Other :=
  match program with
  | .done result => next result
  | .gets site rest => .gets site fun text => (rest text).bind next
  | .act request rest => .act request (rest.bind next)

instance : Monad (Program Site Act) where
  pure := .done
  bind := Program.bind

def ask (site : Site) : Program Site Act (List UInt8) :=
  .gets site .done

def perform (request : Act) : Program Site Act Unit :=
  .act request (.done ())

/-- The first `count` passes of an endless loop; `none` leaves it early. -/
def Program.loop (body : Nat → Program Site Act Bool) : Nat → Nat → Program Site Act Bool
  | 0, _ => .done true
  | count + 1, pass => (body pass).bind fun goesOn =>
      if goesOn then Program.loop body count (pass + 1) else .done false

/-- What an observer of a run sees: at which site a text was read and which
bytes that took off the input, and which acts were performed. -/
inductive Mark (Site Act : Type) where
  | read (site : Site) (text consumed : List UInt8)
  | act (request : Act)
  deriving DecidableEq

structure Reading (Input : Type) where
  text : List UInt8
  consumed : List UInt8
  rest : Input

/-- A source with nothing left answers `none`: the program waits there. -/
abbrev Source (Site Input : Type) := Site → Input → Option (Reading Input)

def run (source : Source Site Input) : Program Site Act Result → Input →
    List (Mark Site Act) × Option (Result × Input)
  | .done result, input => ([], some (result, input))
  | .gets site next, input =>
      match source site input with
      -- the program waits at this site for good
      | none => ([], none)
      | some reading =>
          let later := run source (next reading.text) reading.rest
          (.read site reading.text reading.consumed :: later.1, later.2)
  | .act request next, input =>
      let later := run source next input
      (.act request :: later.1, later.2)

section Sources

def newline : UInt8 := 10

structure TypedLine where
  text : List UInt8
  nulFree : 0 ∉ text := by decide
  oneLine : newline ∉ text := by decide
  deriving DecidableEq

def stream (lines : List TypedLine) : List UInt8 :=
  lines.flatMap fun line => line.text ++ [newline]

def takeLine : Nat → List UInt8 → List UInt8 × List UInt8
  | 0, bytes => ([], bytes)
  | _ + 1, [] => ([], [])
  | num + 1, byte :: rest =>
      if byte = newline then ([byte], rest)
      else
        let later := takeLine num rest
        (byte :: later.1, later.2)

def stripNewline (bytes : List UInt8) : List UInt8 :=
  -- a line that was cut has none, and nothing is stripped
  if bytes.getLast? = some newline then bytes.dropLast else bytes

/-- `Gets(str, num)`: room for the terminator is kept, so `num - 1` bytes at
most leave the stream, and the newline among them is stripped from `str`. -/
def gets (num : Nat) (bytes : List UInt8) : Reading (List UInt8) :=
  let taken := takeLine (num - 1) bytes
  { text := cstring (stripNewline taken.1), consumed := taken.1, rest := taken.2 }

def charSource (size : Site → Nat) : Source Site (List UInt8) :=
  fun site bytes => if bytes = [] then none else some (gets (size site) bytes)

def lineSource : Source Site (List TypedLine)
  | _, [] => none
  | _, line :: rest =>
      some { text := line.text, consumed := line.text ++ [newline], rest := rest }

end Sources

def Mark.Fits (size : Site → Nat) : Mark Site Act → Prop
  | .read site text _ => text.length + 2 ≤ size site
  | .act _ => True

instance (size : Site → Nat) (mark : Mark Site Act) : Decidable (mark.Fits size) :=
  match mark with
  | .read site text _ => inferInstanceAs (Decidable (text.length + 2 ≤ size site))
  | .act _ => inferInstanceAs (Decidable True)

def Fits (size : Site → Nat) (marks : List (Mark Site Act)) : Prop :=
  ∀ mark ∈ marks, mark.Fits size

instance (size : Site → Nat) (marks : List (Mark Site Act)) : Decidable (Fits size marks) :=
  inferInstanceAs (Decidable (∀ mark ∈ marks, mark.Fits size))

@[simp] theorem fits_read (size : Site → Nat) (site : Site) (text consumed : List UInt8)
    (rest : List (Mark Site Act)) :
    Fits size (.read site text consumed :: rest) ↔
      text.length + 2 ≤ size site ∧ Fits size rest :=
  List.forall_mem_cons

@[simp] theorem fits_act (size : Site → Nat) (request : Act) (rest : List (Mark Site Act)) :
    Fits size (.act request :: rest) ↔ Fits size rest := by
  simp [Fits, Mark.Fits]

def readTexts (marks : List (Mark Site Act)) : List (List UInt8) :=
  marks.filterMap fun
    | .read _ text _ => some text
    | .act _ => none

theorem run_bind (source : Source Site Input) (program : Program Site Act Result)
    (next : Result → Program Site Act Other) (input : Input) :
    run source (program.bind next) input =
      match run source program input with
      | (marks, none) => (marks, none)
      | (marks, some (result, rest)) =>
          (marks ++ (run source (next result) rest).1, (run source (next result) rest).2) := by
  induction program generalizing input with
  | done result => simp [Program.bind, run]
  | gets site rest ih =>
      simp only [Program.bind, run]
      cases source site input with
      | none => rfl
      | some reading =>
          simp only [ih]
          rcases run source (rest reading.text) reading.rest with ⟨marks, _ | ⟨result, left⟩⟩ <;> rfl
  | act request rest ih =>
      simp only [Program.bind, run, ih]
      rcases run source rest input with ⟨marks, _ | ⟨result, left⟩⟩ <;> rfl

theorem take_line_length (num : Nat) (bytes : List UInt8) :
    (takeLine num bytes).1.length ≤ num := by
  induction num generalizing bytes with
  | zero => simp [takeLine]
  | succ num ih =>
      cases bytes with
      | nil => simp [takeLine]
      | cons byte rest =>
          simp only [takeLine]
          split
          · simp
          · simpa using ih rest

theorem take_line_exact (text rest : List UInt8) (oneLine : newline ∉ text) (num : Nat)
    (room : text.length + 1 ≤ num) :
    takeLine num (text ++ newline :: rest) = (text ++ [newline], rest) := by
  induction text generalizing num with
  | nil =>
      rcases Nat.exists_eq_add_of_le' room with ⟨smaller, rfl⟩
      simp [takeLine]
  | cons byte tail ih =>
      simp only [List.mem_cons, not_or] at oneLine
      rcases Nat.exists_eq_add_of_le' (Nat.le_of_add_left_le room) with ⟨smaller, rfl⟩
      have later := ih oneLine.2 smaller (by simp at room; omega)
      simp [takeLine, Ne.symm oneLine.1, later]

theorem gets_exact (line : TypedLine) (rest : List UInt8) (num : Nat)
    (room : line.text.length + 2 ≤ num) :
    gets num (line.text ++ newline :: rest) =
      { text := line.text, consumed := line.text ++ [newline], rest := rest } := by
  rw [gets, take_line_exact line.text rest line.oneLine (num - 1) (by omega)]
  simp [stripNewline, cstring_of_nul_free line.text line.nulFree]

/-- A line too long for the call leaves its newline, at least, on the stream. -/
theorem gets_cut (line : TypedLine) (rest : List UInt8) (num : Nat)
    (tooLong : ¬ line.text.length + 2 ≤ num) :
    (gets num (line.text ++ newline :: rest)).consumed ≠ line.text ++ [newline] := by
  intro whole
  have bound := take_line_length (num - 1) (line.text ++ newline :: rest)
  have same : (takeLine (num - 1) (line.text ++ newline :: rest)).1 = line.text ++ [newline] := whole
  simp only [same, List.length_append, List.length_singleton] at bound
  omega

theorem gets_text_length (num : Nat) (bytes : List UInt8) :
    (gets num bytes).text.length ≤ num - 1 := by
  have shorter : (cstring (stripNewline (takeLine (num - 1) bytes).1)).length ≤
      (stripNewline (takeLine (num - 1) bytes).1).length := (List.takeWhile_prefix _).length_le
  have stripped : (stripNewline (takeLine (num - 1) bytes).1).length ≤
      (takeLine (num - 1) bytes).1.length := by
    unfold stripNewline
    split <;> simp
  exact (shorter.trans stripped).trans (take_line_length (num - 1) bytes)

theorem gets_text_nul_free (num : Nat) (bytes : List UInt8) : 0 ∉ (gets num bytes).text :=
  cstring_nul_free _

theorem char_source_line (size : Site → Nat) (site : Site) (line : TypedLine)
    (lines : List TypedLine) :
    charSource size site (stream (line :: lines)) =
      some (gets (size site) (line.text ++ newline :: stream lines)) := by
  simp [charSource, stream]

/-- The bounded reads hand over exactly the typed lines if and only if every
line the session asks for fits, with its newline and the terminator, the size
passed at the site that reads it. -/
theorem framed_iff (size : Site → Nat) (program : Program Site Act Result)
    (lines : List TypedLine) :
    (run (charSource size) program (stream lines)).1 = (run lineSource program lines).1 ↔
      Fits size (run lineSource program lines).1 := by
  induction program generalizing lines with
  | done result => simp [run, Fits]
  | act request next ih => simpa [run] using ih lines
  | gets site next ih =>
      cases lines with
      | nil => simp [run, charSource, lineSource, stream, Fits]
      | cons line rest =>
          simp only [run, char_source_line, lineSource, fits_read]
          by_cases room : line.text.length + 2 ≤ size site
          · rw [gets_exact line (stream rest) (size site) room]
            simpa [room] using ih line.text rest
          -- a cut line takes other bytes off the stream than the typed line
          · have cut := gets_cut line (stream rest) (size site) room
            constructor
            · intro same
              simp only [List.cons.injEq, Mark.read.injEq] at same
              exact absurd same.1.2.2 cut
            · intro fits
              exact absurd fits.1 room

/-- The questions of a line session take the typed lines one by one, from the
first on, and skip none. -/
theorem line_reads_in_order (program : Program Site Act Result) (lines : List TypedLine) :
    readTexts (run lineSource program lines).1 <+: lines.map TypedLine.text := by
  induction program generalizing lines with
  | done result => simp [run, readTexts]
  | act request next ih => simpa [run, readTexts] using ih lines
  | gets site next ih =>
      cases lines with
      | nil => simp [run, lineSource, readTexts]
      | cons line rest =>
          have later := ih line.text rest
          simpa [run, lineSource, readTexts, List.cons_prefix_cons] using later

/-! What can be said of the acts of a run from the program text alone, and
what has to be read off the marks before each act. -/
section Acts

def acts (marks : List (Mark Site Act)) : List Act :=
  marks.filterMap fun
    | .read _ _ _ => none
    | .act request => some request

def Program.Performs (allowed : Act → Prop) : Program Site Act Result → Prop
  | .done _ => True
  | .gets _ next => ∀ text, (next text).Performs allowed
  | .act request next => allowed request ∧ next.Performs allowed

def Program.Returns (allowed : Result → Prop) : Program Site Act Result → Prop
  | .done result => allowed result
  | .gets _ next => ∀ text, (next text).Returns allowed
  | .act _ next => next.Returns allowed

def EachAct (justified : Act → List (Mark Site Act) → Prop) (marks : List (Mark Site Act)) :
    Prop :=
  ∀ before request after, marks = before ++ .act request :: after → justified request before

theorem mem_acts (marks : List (Mark Site Act)) (request : Act) :
    request ∈ acts marks ↔ .act request ∈ marks := by
  simp only [acts, List.mem_filterMap]
  constructor
  · rintro ⟨mark, member, found⟩
    cases mark with
    | read site text consumed => simp at found
    | act other => simpa [Option.some.inj found] using member
  · exact fun member => ⟨.act request, member, rfl⟩

@[simp] theorem acts_append (first rest : List (Mark Site Act)) :
    acts (first ++ rest) = acts first ++ acts rest :=
  List.filterMap_append

@[simp] theorem acts_map_act (requests : List Act) :
    acts (requests.map .act : List (Mark Site Act)) = requests := by
  induction requests with
  | nil => rfl
  | cons request rest ih => exact congrArg (request :: ·) ih

theorem performs_bind {allowed : Act → Prop} (program : Program Site Act Result)
    (next : Result → Program Site Act Other) (first : program.Performs allowed)
    (later : ∀ result, (next result).Performs allowed) :
    (program.bind next).Performs allowed := by
  induction program with
  | done result => exact later result
  | gets site rest ih => exact fun text => ih text (first text)
  | act request rest ih => exact ⟨first.1, ih first.2⟩

theorem returns_bind {allowed : Other → Prop} (program : Program Site Act Result)
    (next : Result → Program Site Act Other) (later : ∀ result, (next result).Returns allowed) :
    (program.bind next).Returns allowed := by
  induction program with
  | done result => exact later result
  | gets site rest ih => exact fun text => ih text
  | act request rest ih => exact ih

theorem run_performs {allowed : Act → Prop} (source : Source Site Input)
    (program : Program Site Act Result) (performs : program.Performs allowed) (input : Input) :
    ∀ request, .act request ∈ (run source program input).1 → allowed request := by
  induction program generalizing input with
  | done result => simp [run]
  | gets site next ih =>
      intro request member
      simp only [run] at member
      cases found : source site input with
      | none => simp [found] at member
      | some reading =>
          simp only [found, List.mem_cons, reduceCtorEq, false_or] at member
          exact ih reading.text (performs reading.text) reading.rest request member
  | act first next ih =>
      intro request member
      simp only [run, List.mem_cons, Mark.act.injEq] at member
      rcases member with rfl | later
      · exact performs.1
      · exact ih performs.2 input request later

theorem run_returns {allowed : Result → Prop} (source : Source Site Input)
    (program : Program Site Act Result) (returns : program.Returns allowed) (input : Input)
    (result : Result) (rest : Input) (ending : (run source program input).2 = some (result, rest)) :
    allowed result := by
  induction program generalizing input with
  | done value =>
      simp only [run, Option.some.injEq, Prod.mk.injEq] at ending
      exact ending.1 ▸ returns
  | gets site next ih =>
      simp only [run] at ending
      cases found : source site input with
      | none => simp [found] at ending
      | some reading =>
          simp only [found] at ending
          exact ih reading.text (returns reading.text) reading.rest ending
  | act request next ih => exact ih returns input ending

variable {justified : Act → List (Mark Site Act) → Prop}

@[simp] theorem each_act_nil : EachAct justified [] := by
  intro before request after split
  simp at split

@[simp] theorem each_act_read (site : Site) (text consumed : List UInt8)
    (rest : List (Mark Site Act)) :
    EachAct justified (.read site text consumed :: rest) ↔
      EachAct (fun request before => justified request (.read site text consumed :: before))
        rest := by
  constructor
  · intro each before request after split
    exact each (.read site text consumed :: before) request after (by simp [split])
  · intro each before request after split
    cases before with
    | nil => simp at split
    | cons mark earlier =>
        simp only [List.cons_append, List.cons.injEq] at split
        exact split.1 ▸ each earlier request after split.2

@[simp] theorem each_act_act (first : Act) (rest : List (Mark Site Act)) :
    EachAct justified (.act first :: rest) ↔
      justified first [] ∧
        EachAct (fun request before => justified request (.act first :: before)) rest := by
  constructor
  · intro each
    constructor
    · exact each [] first rest rfl
    · intro before request after split
      exact each (.act first :: before) request after (by simp [split])
  · rintro ⟨head, tail⟩ before request after split
    cases before with
    | nil =>
        simp only [List.nil_append, List.cons.injEq, Mark.act.injEq] at split
        exact split.1 ▸ head
    | cons mark earlier =>
        simp only [List.cons_append, List.cons.injEq] at split
        exact split.1 ▸ tail earlier request after split.2

theorem each_act_of_performs (source : Source Site Input) (program : Program Site Act Result)
    (performs : program.Performs fun request => ∀ before, justified request before)
    (input : Input) : EachAct justified (run source program input).1 := by
  intro before request after split
  exact run_performs source program performs input request (by simp [split]) before

theorem each_act_append
    (grows : ∀ request earlier before, justified request before →
      justified request (earlier ++ before))
    (left right : List (Mark Site Act)) (leftEach : EachAct justified left)
    (rightEach : EachAct justified right) : EachAct justified (left ++ right) := by
  intro before request after split
  rcases List.append_eq_append_iff.mp split with ⟨middle, rfl, tail⟩ | ⟨middle, rfl, tail⟩
  · exact grows request left middle (rightEach middle request after tail)
  · cases middle with
    | nil =>
        have none := rightEach [] request after (by simpa using tail.symm)
        simpa using grows request before [] none
    | cons mark rest =>
        simp only [List.cons_append, List.cons.injEq] at tail
        rcases tail with ⟨rfl, _⟩
        exact leftEach before request rest rfl

theorem each_act_run_bind
    (grows : ∀ request earlier before, justified request before →
      justified request (earlier ++ before))
    (source : Source Site Input) (program : Program Site Act Result)
    (next : Result → Program Site Act Other)
    (first : ∀ input, EachAct justified (run source program input).1)
    (later : ∀ result input, EachAct justified (run source (next result) input).1)
    (input : Input) : EachAct justified (run source (program.bind next) input).1 := by
  have start := first input
  rw [run_bind]
  cases ran : run source program input with
  | mk marks ending =>
      rw [ran] at start
      cases ending with
      | none => exact start
      | some ending => exact each_act_append grows marks _ start (later ending.1 ending.2)

theorem each_act_run_loop
    (grows : ∀ request earlier before, justified request before →
      justified request (earlier ++ before))
    (source : Source Site Input) (body : Nat → Program Site Act Bool)
    (each : ∀ pass input, EachAct justified (run source (body pass) input).1)
    (count pass : Nat) (input : Input) :
    EachAct justified (run source (Program.loop body count pass) input).1 := by
  induction count generalizing pass input with
  | zero => simp [Program.loop, run]
  | succ count ih =>
      apply each_act_run_bind grows source (body pass) _ (each pass)
      intro goesOn input
      cases goesOn with
      | true => exact ih (pass + 1) input
      | false => simp [run]

end Acts

/-! What a run shows, and how it ends, from the program text alone. A run that
waits for a line ends in `none`. -/
section Explained

variable {readable : Site → List UInt8 → List UInt8 → Prop}

def Program.Explained (readable : Site → List UInt8 → List UInt8 → Prop) :
    (List (Mark Site Act) → Option Result → Prop) → Program Site Act Result → Prop
  | explained, .done result => explained [] (some result)
  | explained, .gets site next =>
      explained [] none ∧ ∀ text consumed, readable site text consumed →
        (next text).Explained readable fun marks ending =>
          explained (.read site text consumed :: marks) ending
  | explained, .act request next =>
      next.Explained readable fun marks ending => explained (.act request :: marks) ending

def performAll (requests : List Act) (next : Program Site Act Result) : Program Site Act Result :=
  requests.foldr .act next

theorem explained_perform_all {explained : List (Mark Site Act) → Option Result → Prop}
    (requests : List Act) (next : Program Site Act Result)
    (later : next.Explained readable fun marks ending =>
      explained (requests.map .act ++ marks) ending) :
    (performAll requests next).Explained readable explained := by
  induction requests generalizing explained with
  | nil => exact later
  | cons request rest ih => exact ih later

theorem run_explained {explained : List (Mark Site Act) → Option Result → Prop}
    (source : Source Site Input)
    (reads : ∀ site input reading, source site input = some reading →
      readable site reading.text reading.consumed)
    (program : Program Site Act Result) (holds : program.Explained readable explained)
    (input : Input) :
    explained (run source program input).1 ((run source program input).2.map Prod.fst) := by
  induction program generalizing explained input with
  | done result => exact holds
  | gets site next ih =>
      simp only [run]
      cases found : source site input with
      | none => exact holds.1
      | some reading =>
          exact ih reading.text (holds.2 _ _ (reads site input reading found)) reading.rest
  | act request next ih => exact ih holds input

end Explained

end Dialogue
