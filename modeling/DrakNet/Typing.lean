import DrakNet.Chat

/-!
From the bytes typed at a terminal to the messages of the chat. `said` reads
off a whole stdin which lines a process will ever send, without a network and
without a loop: commands are taken out with their arguments and 'quit' ends
it. Whatever packets come in between, a process composes these lines, in this
order. `Gets` delivers a typed line of up to 2046 bytes whole, a longer one in
pieces; what is sent is name and piece, cut at 2047 bytes together.
-/

namespace DrakNet

open CString Dialogue StarBroadcast

section Script

variable (build : Build)

def argumentSites (line : List UInt8) : List Site :=
  if line = ascii "pingip" then [.pingAddress, .pingPort]
  else if line = ascii "ban" then [.banAddress]
  else []

/-- What is left of stdin behind reads at the given sites, unless one waits. -/
def skip : List Site → List UInt8 → Option (List UInt8)
  | [], stdin => some stdin
  | site :: rest, stdin =>
      if stdin = [] then none else skip rest (gets (getsSize build site) stdin).rest

def leftAfter (stdin : List UInt8) : Option (List UInt8) :=
  if nextLine stdin = ascii "quit" then none
  else skip build (argumentSites (nextLine stdin)) (gets messageSize stdin).rest

theorem take_line_rest (num : Nat) (bytes : List UInt8) :
    (takeLine num bytes).2.length ≤ bytes.length := by
  induction num generalizing bytes with
  | zero => simp [takeLine]
  | succ num ih =>
      cases bytes with
      | nil => simp [takeLine]
      | cons byte rest =>
          simp only [takeLine]
          split
          · simp
          · exact (ih rest).trans (by simp)

theorem gets_rest_le (num : Nat) (stdin : List UInt8) :
    (gets num stdin).rest.length ≤ stdin.length :=
  take_line_rest (num - 1) stdin

theorem gets_rest_lt (num : Nat) (roomy : 1 < num) (stdin : List UInt8) (typed : stdin ≠ []) :
    (gets num stdin).rest.length < stdin.length := by
  rcases Nat.exists_eq_add_of_lt roomy with ⟨more, rfl⟩
  cases stdin with
  | nil => exact absurd rfl typed
  | cons byte rest =>
      have size : 1 + more + 1 - 1 = more + 1 := by omega
      simp only [gets, size, takeLine]
      split
      · simp
      · exact Nat.lt_succ_of_le (take_line_rest more rest)

theorem skip_le (sites : List Site) (stdin rest : List UInt8)
    (left : skip build sites stdin = some rest) : rest.length ≤ stdin.length := by
  induction sites generalizing stdin with
  | nil =>
      cases left
      exact Nat.le_refl _
  | cons site more ih =>
      simp only [skip] at left
      split at left
      · cases left
      · exact (ih _ left).trans (gets_rest_le _ stdin)

theorem left_after_lt (stdin rest : List UInt8) (typed : stdin ≠ [])
    (left : leftAfter build stdin = some rest) : rest.length < stdin.length := by
  unfold leftAfter at left
  split at left
  · cases left
  · exact (skip_le build _ _ _ left).trans_lt (gets_rest_lt messageSize (by decide) stdin typed)

def said (stdin : List UInt8) : List (List UInt8) :=
  if _ : stdin = [] then []
  else
    let line := nextLine stdin
    (if isCommand line then [] else [line]) ++
      match _ : leftAfter build stdin with
      | none => []
      | some rest => said rest
termination_by stdin.length
decreasing_by exact left_after_lt build stdin _ ‹_› ‹_›

theorem said_nil : said build [] = [] := by
  rw [said, dif_pos rfl]

theorem said_ends (stdin : List UInt8) (command : isCommand (nextLine stdin) = true)
    (ends : leftAfter build stdin = none) : said build stdin = [] := by
  rw [said]
  split
  · rfl
  · simp only [command, ↓reduceIte, List.nil_append]
    split
    · rfl
    · next rest left =>
        rw [ends] at left
        cases left

theorem said_command (stdin rest : List UInt8) (typed : stdin ≠ [])
    (command : isCommand (nextLine stdin) = true) (left : leftAfter build stdin = some rest) :
    said build stdin = said build rest := by
  rw [said, dif_neg typed]
  simp only [command, ↓reduceIte, List.nil_append]
  split
  · next ends =>
      rw [left] at ends
      cases ends
  · next other alsoLeft =>
      rw [left] at alsoLeft
      cases alsoLeft
      rfl

theorem chat_left (stdin : List UInt8) (chat : isCommand (nextLine stdin) = false) :
    leftAfter build stdin = some (gets messageSize stdin).rest := by
  simp only [isCommand, Bool.or_eq_false_iff, decide_eq_false_iff_not] at chat
  simp only [leftAfter, argumentSites, chat, ↓reduceIte, skip]

theorem said_chat (stdin : List UInt8) (typed : stdin ≠ [])
    (chat : isCommand (nextLine stdin) = false) :
    said build stdin = nextLine stdin :: said build (gets messageSize stdin).rest := by
  have left := chat_left build stdin chat
  rw [said, dif_neg typed]
  simp only [chat, Bool.false_eq_true, ↓reduceIte, List.singleton_append]
  split
  · next ends =>
      rw [left] at ends
      cases ends
  · next other alsoLeft =>
      rw [left] at alsoLeft
      cases alsoLeft
      rfl

end Script

section Lines

theorem take_line_cut (text rest : List UInt8) (oneLine : newline ∉ text) (num : Nat)
    (long : num ≤ text.length) :
    takeLine num (text ++ newline :: rest) = (text.take num, text.drop num ++ newline :: rest) := by
  induction num generalizing text with
  | zero => rfl
  | succ num ih =>
      cases text with
      | nil => simp at long
      | cons byte tail =>
          simp only [List.mem_cons, not_or] at oneLine
          have later := ih tail oneLine.2 (by simpa using long)
          simp [takeLine, Ne.symm oneLine.1, later]

/-- A line that does not fit is cut, and what is cut off is left to be read. -/
theorem gets_long (text rest : List UInt8) (nulFree : 0 ∉ text) (oneLine : newline ∉ text)
    (num : Nat) (long : num - 1 ≤ text.length) :
    (gets num (text ++ newline :: rest)).text = text.take (num - 1) ∧
      (gets num (text ++ newline :: rest)).rest = text.drop (num - 1) ++ newline :: rest := by
  have whole : stripNewline (text.take (num - 1)) = text.take (num - 1) := by
    apply if_neg
    intro ending
    exact oneLine (List.mem_of_mem_take (List.mem_of_getLast? ending))
  have cut : 0 ∉ text.take (num - 1) := fun member => nulFree (List.mem_of_mem_take member)
  simp [gets, take_line_cut text rest oneLine (num - 1) long, whole, cstring_of_nul_free _ cut]

/-- The pieces in which a line is read: with 2047 bytes its newline is left
over, and read as an empty line. -/
def pieces (text : List UInt8) : List (List UInt8) :=
  if text.length < messageSize - 1 then [text]
  else text.take (messageSize - 1) :: pieces (text.drop (messageSize - 1))
termination_by text.length
decreasing_by
  have size : messageSize = 2048 := rfl
  rw [List.length_drop]
  omega

theorem said_line (build : Build) (text rest : List UInt8) (nulFree : 0 ∉ text)
    (oneLine : newline ∉ text) (chat : ∀ piece ∈ pieces text, isCommand piece = false) :
    said build (text ++ newline :: rest) = pieces text ++ said build rest := by
  have typed : text ++ newline :: rest ≠ [] := by simp
  induction text using pieces.induct with
  | case1 text short =>
      have size : messageSize = 2048 := rfl
      have read := gets_exact ⟨text, nulFree, oneLine⟩ rest messageSize (by
        change text.length + 2 ≤ messageSize
        omega)
      rw [pieces, if_pos short] at chat ⊢
      have line : nextLine (text ++ newline :: rest) = text := congrArg Reading.text read
      have left : (gets messageSize (text ++ newline :: rest)).rest = rest :=
        congrArg Reading.rest read
      rw [said_chat build _ typed (by rw [line]; exact chat text (by simp)), line, left]
      rfl
  | case2 text long ih =>
      rcases gets_long text rest nulFree oneLine messageSize (Nat.le_of_not_lt long)
        with ⟨line, left⟩
      rw [pieces, if_neg long] at chat ⊢
      have first := chat _ List.mem_cons_self
      rw [said_chat build _ typed (by rw [nextLine, line]; exact first), nextLine, line, left,
        ih (fun member => nulFree (List.mem_of_mem_drop member))
          (fun member => oneLine (List.mem_of_mem_drop member))
          (fun piece member => chat piece (List.mem_cons_of_mem _ member)) (by simp)]
      rfl

theorem said_lines (build : Build) (lines : List TypedLine)
    (chat : ∀ line ∈ lines, ∀ piece ∈ pieces line.text, isCommand piece = false) :
    said build (stream lines) = lines.flatMap fun line => pieces line.text := by
  induction lines with
  | nil => exact said_nil build
  | cons line rest ih =>
      have split : stream (line :: rest) = line.text ++ newline :: stream rest := by
        simp [stream]
      rw [split, said_line build line.text (stream rest) line.nulFree line.oneLine
        (chat line List.mem_cons_self), ih fun other member =>
          chat other (List.mem_cons_of_mem _ member)]
      rfl

end Lines

section Passes

variable (peer : Peer) (state : LoopState)

theorem command_run (build : Build) (isServer : Bool) (userName : Buffer userNameSize)
    (serverAddress : SystemAddress) (line rest : List UInt8) (command : isCommand line = true) :
    (Dialogue.run (charSource (getsSize build))
        (handleLine build isServer userName serverAddress line) rest).2 =
      if line = ascii "quit" then some (.quit, rest)
      else (skip build (argumentSites line) rest).map fun left => (.continued, left) := by
  rcases command_cases line command with rfl | rfl | rfl | rfl <;> unfold handleLine
  · rw [check_quit]
    rfl
  · rw [check_pingip]
    simp only [bind, Program.bind, Dialogue.run, charSource]
    change _ = (skip build [.pingAddress, .pingPort] rest).map _
    by_cases first : rest = []
    · simp only [first, ↓reduceIte, skip, Option.map_none]
    · by_cases second : (gets (getsSize build .pingAddress) rest).rest = []
      · simp only [first, second, ↓reduceIte, skip, Option.map_none]
      · simp only [first, second, ↓reduceIte, skip, Option.map_some]
        rfl
  · rw [check_getconnectionlist]
    rfl
  · rw [check_ban]
    simp only [bind, Program.bind, Dialogue.run, charSource]
    change _ = (skip build [.banAddress] rest).map _
    by_cases first : rest = []
    · simp only [first, ↓reduceIte, skip, Option.map_none]
    · simp only [first, ↓reduceIte, skip, Option.map_some]
      rfl

theorem command_left (typed : state.stdin ≠ [])
    (command : isCommand (nextLine state.stdin) = true) :
    (leftAfter peer.build state.stdin = none ∧ (kbhit peer state).1.status ≠ .running) ∨
      ∃ rest, leftAfter peer.build state.stdin = some rest ∧
        (kbhit peer state).1 = { state with stdin := rest, status := .running } := by
  have ran := command_run peer.build peer.isServer peer.userName state.serverAddress
    (nextLine state.stdin) (gets messageSize state.stdin).rest command
  rw [kbhit, if_neg typed, input_pass_run _ _ _ _ _ typed]
  cases result : Dialogue.run (charSource (getsSize peer.build))
      (handleLine peer.build peer.isServer peer.userName state.serverAddress
        (nextLine state.stdin)) (gets messageSize state.stdin).rest with
  | mk marks ending =>
      rw [result] at ran
      change ending = _ at ran
      rw [ran]
      by_cases quit : nextLine state.stdin = ascii "quit"
      · left
        simp [leftAfter, quit, passStatus]
      · cases left : skip peer.build (argumentSites (nextLine state.stdin))
            (gets messageSize state.stdin).rest with
        | none =>
            left
            simp [leftAfter, quit, left]
        | some rest =>
            right
            exact ⟨rest, by simp [leftAfter, quit, left], by simp [quit, passStatus]⟩

def messageOf (peer : Peer) (line : List UInt8) : List UInt8 :=
  terminated (chatText (cstring peer.userName.bytes) line)

theorem typed_send_data (line : List UInt8) :
    (typedSend peer state.serverAddress line).data = messageOf peer line := by
  unfold typedSend
  split <;> rfl

/-- One pass says the next line, or none, and leaves the others unsaid. -/
theorem kbhit_said (running : state.status = .running) :
    ∃ unsaid, (sends (kbhit peer state).2).map Send.data ++ unsaid.map (messageOf peer) =
        (said peer.build state.stdin).map (messageOf peer) ∧
      ((kbhit peer state).1.status = .running →
        unsaid = said peer.build (kbhit peer state).1.stdin) := by
  by_cases typed : state.stdin = []
  · have still : kbhit peer state = (state, []) := by simp [kbhit, typed]
    rw [still]
    exact ⟨said peer.build state.stdin, by simp, fun _ => rfl⟩
  · by_cases command : isCommand (nextLine state.stdin) = true
    · have silent := (command_pass peer state
        (fun chat => absurd command (by simp [chat.2])) running).1.1
      rw [silent]
      rcases command_left peer state typed command with ⟨ends, stopped⟩ | ⟨rest, left, after⟩
      · refine ⟨[], ?_, fun goesOn => absurd goesOn stopped⟩
        rw [said_ends peer.build state.stdin command ends]
        rfl
      · refine ⟨said peer.build rest, ?_, ?_⟩
        · rw [said_command peer.build state.stdin rest typed command left]
          rfl
        · intro _
          rw [after]
    · have chat : isCommand (nextLine state.stdin) = false := by simpa using command
      rw [chat_pass peer state ⟨typed, chat⟩]
      refine ⟨said peer.build (gets messageSize state.stdin).rest, ?_, fun _ => rfl⟩
      rw [said_chat peer.build state.stdin typed chat]
      simp [typed_send_data]

end Passes

section Steps

/-- The messages so far are the first of a stdin's lines, and a process that
still runs has the others before it. -/
def SaidSoFar (peer : Peer) (stdin : List UInt8) (state : LoopState)
    (messages : List (List UInt8)) : Prop :=
  ∃ unsaid, messages ++ unsaid.map (messageOf peer) =
      (said peer.build stdin).map (messageOf peer) ∧
    (state.status = .running → unsaid = said peer.build state.stdin)

variable {peer : Peer} {stdin : List UInt8} {state : LoopState} {messages : List (List UInt8)}

theorem said_so_far_start : SaidSoFar peer stdin (loopEntry stdin) [] :=
  ⟨said peer.build stdin, rfl, fun _ => rfl⟩

theorem SaidSoFar.typed (before : SaidSoFar peer stdin state messages) :
    SaidSoFar peer stdin (step peer state .kbhit).1
      (messages ++ (sends (step peer state .kbhit).2).map Send.data) := by
  by_cases running : state.status = .running
  · rcases before with ⟨unsaid, account, left⟩
    have taken : step peer state .kbhit = kbhit peer state := by simp [step, running]
    rcases kbhit_said peer state running with ⟨later, spoken, next⟩
    rw [taken]
    refine ⟨later, ?_, next⟩
    rw [List.append_assoc, spoken, ← left running, account]
  · rw [stopped_step peer state running .kbhit]
    simpa [sends] using before

theorem SaidSoFar.received (before : SaidSoFar peer stdin state messages) (packet : Packet) :
    SaidSoFar peer stdin (step peer state (.receive packet)).1 messages := by
  by_cases running : state.status = .running
  · rcases before with ⟨unsaid, account, left⟩
    refine ⟨unsaid, account, fun _ => ?_⟩
    rw [left running]
    simp [step, running, receive]
  · rw [stopped_step peer state running (.receive packet)]
    exact before

end Steps

theorem server_notified_silent (build : Build) (state : LoopState) (packet : Packet)
    (named : namedNotification packet = true) :
    sends (step (serverPeer build) state (.receive packet)).2 = [] := by
  by_cases running : state.status = .running
  · simp only [namedNotification, ne_eq, decide_not, Bool.and_eq_true, Bool.not_eq_true',
      decide_eq_false_iff_not] at named
    rcases Option.ne_none_iff_exists'.mp named.1 with ⟨branch, taken⟩
    have quiet := receive_named (serverPeer build) state packet branch taken
      (fun same => named.2 (same ▸ taken)) running
    simpa [step, running] using quiet.2.1
  · rw [stopped_step (serverPeer build) state running (.receive packet)]
    rfl

section Networks

variable {ι : Type} [DecidableEq ι] (roster : Roster ι)

def fromServer (log : List (Option ι × List UInt8)) : List (List UInt8) :=
  entries Option.isNone log

/-- Everybody's messages are the lines typed there, in the order they were typed. -/
structure AsTyped (typed : ι → List UInt8) (typedAtServer : List UInt8) (net : Network ι) :
    Prop where
  clients : ∀ i,
    SaidSoFar (roster.peer i) (typed i) (net.client i).loop (net.client i).composed
  server : SaidSoFar (serverPeer roster.serverBuild) typedAtServer net.server (fromServer net.log)

variable {roster} {typed : ι → List UInt8} {typedAtServer : List UInt8} {before : Network ι}

omit [DecidableEq ι] in
theorem client_acts_said (i : ι) (client : Client) (event : LoopEvent)
    (saidBefore : SaidSoFar (roster.peer i) (typed i) client.loop client.composed) :
    SaidSoFar (roster.peer i) (typed i) (clientActs roster i client event).loop
      (clientActs roster i client event).composed := by
  cases event with
  | kbhit => exact saidBefore.typed
  | receive packet =>
      have silent : sends (step (roster.peer i) client.loop (.receive packet)).2 = [] := by
        apply List.eq_nil_iff_forall_not_mem.mpr
        intro request sent
        have typing := (client_step_sends (roster.build i) (roster.name i) client.loop _ request
          sent).2.1
        cases typing
      simpa [clientActs, silent] using saidBefore.received packet

theorem AsTyped.update (asTyped : AsTyped roster typed typedAtServer before) (i : ι)
    (client : Client)
    (changed : SaidSoFar (roster.peer i) (typed i) client.loop client.composed) :
    AsTyped roster typed typedAtServer (before.update i client) where
  clients := by
    intro j
    by_cases same : j = i
    · subst j
      simpa [Network.update] using changed
    · simpa [Network.update, same] using asTyped.clients j
  server := asTyped.server

omit [DecidableEq ι] in
theorem from_server_append (log more : List (Option ι × List UInt8)) :
    fromServer (log ++ more) = fromServer log ++ fromServer more := by
  simp [fromServer, entries]

omit [DecidableEq ι] in
theorem from_server_own (requests : List Send) :
    fromServer (requests.map fun request => ((none : Option ι), request.data)) =
      requests.map Send.data := by
  simp [fromServer, entries, List.filter_map, Function.comp_def]

omit [DecidableEq ι] in
theorem from_server_relayed (i : ι) (requests : List Send) :
    fromServer (requests.map fun request => (some i, request.data)) = [] := by
  simp [fromServer, entries, List.filter_map, Function.comp_def]

theorem network_step_typed {after : Network ι} {event : NetworkEvent ι}
    (asTyped : AsTyped roster typed typedAtServer before)
    (taken : networkStep roster before event = some after) :
    AsTyped roster typed typedAtServer after := by
  have moved := network_step_moved roster before event after taken
  cases event with
  | clientTypes i =>
      cases moved
      exact asTyped.update i _ (client_acts_said i _ _ (asTyped.clients i))
  | clientReceives i =>
      rcases moved with ⟨packet, rest, _, _, rfl⟩
      exact asTyped.update i _ (client_acts_said i _ _ (asTyped.clients i))
  | clientNotified i packet =>
      rcases moved with ⟨_, _, rfl⟩
      exact asTyped.update i _ (client_acts_said i _ _ (asTyped.clients i))
  | serverTypes =>
      cases moved
      refine ⟨asTyped.clients, ?_⟩
      simpa only [serverActs, from_server_append, from_server_own] using asTyped.server.typed
  | serverReceives i =>
      rcases moved with ⟨packet, rest, _, _, rfl⟩
      refine ⟨(asTyped.update i { before.client i with uplink := rest } (asTyped.clients i)).clients,
        ?_⟩
      simp only [serverActs, from_server_append, from_server_relayed, List.append_nil]
      exact asTyped.server.received packet
  | serverNotified packet =>
      rcases moved with ⟨named, rfl⟩
      refine ⟨asTyped.clients, ?_⟩
      have silent := server_notified_silent roster.serverBuild before.server packet named
      simpa only [serverActs, silent, List.map_nil, List.append_nil]
        using asTyped.server.received packet
  | joins i =>
      rcases moved with ⟨_, rfl⟩
      exact asTyped.update i _ (asTyped.clients i)
  | leaves i keptUp keptDown =>
      rcases moved with ⟨_, rfl⟩
      exact asTyped.update i _ (asTyped.clients i)

theorem reached_typed {allowed : Network ι → NetworkEvent ι → Prop} {net : Network ι}
    (reached : Runs.Reach (networkStep roster) allowed (.start typed typedAtServer) net) :
    AsTyped roster typed typedAtServer net :=
  Runs.reach_invariant (AsTyped roster typed typedAtServer)
    ⟨fun _ => said_so_far_start, said_so_far_start⟩
    (fun _ _ _ asTyped _ taken => network_step_typed asTyped taken) reached

theorem SaidSoFar.start {peer : Peer} {stdin : List UInt8} {state : LoopState}
    {messages : List (List UInt8)} (soFar : SaidSoFar peer stdin state messages) :
    messages <+: (said peer.build stdin).map (messageOf peer) := by
  rcases soFar with ⟨unsaid, account, _⟩
  exact ⟨_, account⟩

/-- What two runs make of one stdin differs in how far they have come, and they
have come equally far where they have left the same of it. -/
theorem SaidSoFar.agree {peer : Peer} {stdin : List UInt8} {state other : LoopState}
    {messages others : List (List UInt8)} (soFar : SaidSoFar peer stdin state messages)
    (otherSoFar : SaidSoFar peer stdin other others) :
    (messages <+: others ∨ others <+: messages) ∧
      (state.status = .running → other.status = .running → state.stdin = other.stdin →
        messages = others) := by
  refine ⟨List.prefix_or_prefix_of_prefix soFar.start otherSoFar.start, ?_⟩
  intro running otherRunning same
  rcases soFar with ⟨unsaid, account, left⟩
  rcases otherSoFar with ⟨otherUnsaid, otherAccount, otherLeft⟩
  rw [left running, same] at account
  rw [otherLeft otherRunning] at otherAccount
  exact List.append_cancel_right (account.trans otherAccount.symm)

/-- How the parties and the network take turns has no influence on what is
composed: two runs on the same input compose the same messages in the same
order, as far as each has come. -/
theorem messages_independent (roster : Roster ι)
    {allowed otherAllowed : Network ι → NetworkEvent ι → Prop} (typed : ι → List UInt8)
    (typedAtServer : List UInt8) (net other : Network ι)
    (reached : Runs.Reach (networkStep roster) allowed (.start typed typedAtServer) net)
    (otherReached : Runs.Reach (networkStep roster) otherAllowed (.start typed typedAtServer)
      other) :
    (∀ i, ((net.client i).composed <+: (other.client i).composed ∨
        (other.client i).composed <+: (net.client i).composed) ∧
      ((net.client i).loop.status = .running → (other.client i).loop.status = .running →
        (net.client i).loop.stdin = (other.client i).loop.stdin →
        (net.client i).composed = (other.client i).composed)) ∧
      (fromServer net.log <+: fromServer other.log ∨
        fromServer other.log <+: fromServer net.log) :=
  ⟨fun i => ((reached_typed reached).clients i).agree ((reached_typed otherReached).clients i),
    (((reached_typed reached).server).agree (reached_typed otherReached).server).1⟩

theorem joined_or_typed_first :
    ∃ net other : Network Bool, (net.client false).early ≠ (other.client false).early ∧
      (net.client false).composed = (other.client false).composed := by
  have first : (Runs.follow (networkStep twoClients) (fun _ _ => True)
      (.start linesOf (ascii "ho" ++ [10])) joinedFirst).map (fun net =>
        decide ((net.client false).early = [] ∧ (net.client false).loop.status = .running ∧
          (net.client false).loop.stdin = [])) = some true := by decide +kernel
  have second : (Runs.follow (networkStep twoClients) (fun _ _ => True)
      (.start linesOf (ascii "ho" ++ [10])) typedFirst).map (fun net =>
        decide ((net.client false).early ≠ [] ∧ (net.client false).loop.status = .running ∧
          (net.client false).loop.stdin = [])) = some true := by decide +kernel
  rcases Option.map_eq_some_iff.mp first with ⟨net, followed, decided⟩
  rcases Option.map_eq_some_iff.mp second with ⟨other, otherFollowed, otherDecided⟩
  rcases of_decide_eq_true decided with ⟨patient, running, readAll⟩
  rcases of_decide_eq_true otherDecided with ⟨early, otherRunning, otherReadAll⟩
  refine ⟨net, other, patient ▸ early.symm, ?_⟩
  have same := (messages_independent twoClients linesOf (ascii "ho" ++ [10]) net other
    (Runs.reach_follow joinedFirst .start followed)
    (Runs.reach_follow typedFirst .start otherFollowed)).1 false
  exact same.2 running otherRunning (readAll.trans otherReadAll.symm)

end Networks

section Lines

variable {ι : Type} [DecidableEq ι]

def Chats (lines : List TypedLine) : Prop :=
  ∀ line ∈ lines, ∀ piece ∈ pieces line.text, isCommand piece = false

def messagesOf (peer : Peer) (lines : List TypedLine) : List (List UInt8) :=
  (lines.flatMap fun line => pieces line.text).map (messageOf peer)

/-- In every run the log has each client's lines, and the server's, as they
were typed there: in order, whole or in pieces, under the name of who typed
them. What a client has read is composed. -/
theorem typed_lines_logged (roster : Roster ι) {allowed : Network ι → NetworkEvent ι → Prop}
    (lines : ι → List TypedLine) (serverLines : List TypedLine) (chats : ∀ i, Chats (lines i))
    (serverChats : Chats serverLines) (net : Network ι)
    (reached : Runs.Reach (networkStep roster) allowed
      (.start (fun i => stream (lines i)) (stream serverLines)) net) :
    (∀ i, (net.client i).early ++ byAuthor i net.log <+: messagesOf (roster.peer i) (lines i) ∧
      ((net.client i).loop.status = .running → (net.client i).loop.stdin = [] →
        (net.client i).composed = messagesOf (roster.peer i) (lines i))) ∧
      fromServer net.log <+: messagesOf (serverPeer roster.serverBuild) serverLines := by
  have asTyped := reached_typed reached
  constructor
  · intro i
    have script := said_lines (roster.peer i).build (lines i) (chats i)
    have soFar := asTyped.clients i
    constructor
    · have composed := soFar.start
      rw [script] at composed
      exact (authored_after_early reached i).trans composed
    · intro running readAll
      rcases soFar with ⟨unsaid, account, left⟩
      rw [left running, readAll, said_nil, script] at account
      simpa [messagesOf] using account
  · have own := asTyped.server.start
    rw [said_lines (serverPeer roster.serverBuild).build serverLines serverChats] at own
    exact own

theorem chats_short (lines : List TypedLine)
    (short : ∀ line ∈ lines, line.text.length < messageSize - 1 ∧ isCommand line.text = false) :
    Chats lines := by
  intro line member piece part
  rw [pieces, if_pos (short line member).1, List.mem_singleton] at part
  rw [part]
  exact (short line member).2

def greetings : List TypedLine := [{ text := ascii "hi" }, { text := ascii "yo" }]

theorem greeting_logged :
    ∃ net : Network Bool, byAuthor false net.log = [terminated (ascii "[A] : hi")] ∧
      byAuthor false net.log <+: messagesOf (twoClients.peer false) greetings := by
  have ran : (Runs.follow (networkStep twoClients) Patient
      (.start (fun _ => stream greetings) (stream [{ text := ascii "ho" }])) joinedFirst).map
        (fun net => decide (byAuthor false net.log = [terminated (ascii "[A] : hi")] ∧
          (net.client false).early = [])) = some true := by decide +kernel
  rcases Option.map_eq_some_iff.mp ran with ⟨net, followed, decided⟩
  rcases of_decide_eq_true decided with ⟨logged, patient⟩
  have whole := ((typed_lines_logged twoClients (fun _ => greetings) [{ text := ascii "ho" }]
    (fun _ => chats_short greetings (by decide)) (chats_short _ (by decide)) net
    (Runs.reach_follow joinedFirst .start followed)).1 false).1
  rw [patient, List.nil_append] at whole
  exact ⟨net, logged, whole⟩

end Lines

end DrakNet
