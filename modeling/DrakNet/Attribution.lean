import DrakNet.Typing

/-!
Who said what. A chat text carries its author's name and nothing else of it, so
a reader goes by the brackets. Every text displayed is a line that was typed at
somebody else, behind the name of that participant. Two names can be taken for
each other only where one has the closing bracket in it; among names without,
the one between the brackets tells the author.
-/

namespace DrakNet

open CString Dialogue StarBroadcast

variable {ι : Type}

/-- The name a participant puts in front of its lines; the server is `none`. -/
def Roster.speaker (roster : Roster ι) : Option ι → List UInt8
  | none => cstring serverUserName.bytes
  | some i => cstring (roster.name i).buffer.bytes

def Roster.saidBy (roster : Roster ι) (typed : ι → List UInt8) (typedAtServer : List UInt8) :
    Option ι → List (List UInt8)
  | none => said roster.serverBuild typedAtServer
  | some i => said (roster.build i) (typed i)

theorem entries_mem (keep : Option ι → Bool) (author : Option ι)
    (log : List (Option ι × List UInt8)) (payload : List UInt8) (kept : keep author = true)
    (logged : (author, payload) ∈ log) : payload ∈ entries keep log :=
  List.mem_map.mpr ⟨(author, payload), List.mem_filter.mpr ⟨logged, kept⟩, rfl⟩

variable [DecidableEq ι]

theorem foreign_mem (i : ι) (log : List (Option ι × List UInt8)) (payload : List UInt8)
    (heard : payload ∈ foreign i log) : ∃ author, author ≠ some i ∧ (author, payload) ∈ log := by
  rcases List.mem_map.mp heard with ⟨⟨author, other⟩, kept, rfl⟩
  rcases List.mem_filter.mp kept with ⟨member, foreigner⟩
  exact ⟨author, by simpa using foreigner, member⟩

def nameB : ClientName :=
  { buffer := Buffer.init userNameSize (ascii "[B] : ") }

def namedClients : Roster Bool :=
  { twoClients with name := fun i => if i then nameB else nameA }

section Reached

variable (roster : Roster ι) {allowed : Network ι → NetworkEvent ι → Prop} (typed : ι → List UInt8)
  (typedAtServer : List UInt8) (net : Network ι)

theorem logged_spoken
    (reached : Runs.Reach (networkStep roster) allowed (.start typed typedAtServer) net)
    (author : Option ι) (payload : List UInt8) (logged : (author, payload) ∈ net.log) :
    ∃ line ∈ roster.saidBy typed typedAtServer author,
      payload = terminated (chatText (roster.speaker author) line) := by
  have asTyped := reached_typed reached
  have spoken : ∀ (peer : Peer) stdin, payload ∈ (said peer.build stdin).map (messageOf peer) →
      ∃ line ∈ said peer.build stdin, payload = messageOf peer line := by
    intro peer stdin member
    rcases List.mem_map.mp member with ⟨line, typedLine, rfl⟩
    exact ⟨line, typedLine, rfl⟩
  cases author with
  | none =>
      apply spoken (serverPeer roster.serverBuild) typedAtServer
      exact asTyped.server.start.subset (entries_mem Option.isNone none net.log payload rfl logged)
  | some i =>
      apply spoken (roster.peer i) (typed i)
      apply (asTyped.clients i).start.subset
      apply (authored_after_early reached i).subset
      exact List.mem_append_right _ (entries_mem _ (some i) net.log payload (by simp) logged)

theorem displayed_logged
    (reached : Runs.Reach (networkStep roster) allowed (.start typed typedAtServer) net)
    (i : ι) (text : List UInt8) (displayed : text ∈ (net.client i).displayed) :
    ∃ author, author ≠ some i ∧ (author, terminated text) ∈ net.log := by
  rcases reached_refines reached with ⟨star, started, refines⟩
  have heard := (displayed_in_order started refines i).subset (List.mem_map_of_mem displayed)
  rcases foreign_mem i _ _ heard with ⟨author, other, member⟩
  exact ⟨author, other, List.mem_of_mem_drop member⟩

end Reached

section Names

/-- The name a reader finds between the brackets. -/
def namedIn (text : List UInt8) : List UInt8 := (text.drop 1).takeWhile (· ≠ 93)

theorem chat_text_bracketed (name line : List UInt8) (short : name.length ≤ 24) :
    ∃ rest, chatText (bracketed name) line = bracketed name ++ rest ∧ rest <+: line := by
  have whole : (bracketed name).take (messageSize - 1) = bracketed name := by
    apply List.take_of_length_le
    have total := bracketed_length name
    have size : messageSize = 2048 := rfl
    omega
  exact ⟨_, by rw [chatText, List.take_append, whole], List.take_prefix _ _⟩

theorem named_in_chat (name line : List UInt8) (short : name.length ≤ 24) (plain : 93 ∉ name) :
    namedIn (chatText (bracketed name) line) = name := by
  rcases chat_text_bracketed name line short with ⟨rest, same, _⟩
  have spelled : (bracketed name ++ rest).drop 1 = name ++ 93 :: (ascii " : " ++ rest) := by
    simp [bracketed, show ascii "[" = [91] from rfl,
      show ascii "] : " = 93 :: ascii " : " from rfl]
  rw [same, namedIn, spelled, List.takeWhile_append_of_pos]
  · simp
  · intro byte member
    have other : byte ≠ 93 := fun closing => plain (closing ▸ member)
    simpa using other

/-- One name continues the other past its brackets. -/
def Continues (name longer : List UInt8) : Prop :=
  ∃ rest, longer = name ++ ascii "] : " ++ rest

/-- The closing bracket and what follows it overlap with themselves nowhere. -/
theorem closing_prefix_iff (name longer : List UInt8) :
    name ++ ascii "] : " <+: longer ++ ascii "] : " ↔ name = longer ∨ Continues name longer := by
  have closing : ascii "] : " = [93, 32, 58, 32] := rfl
  induction name generalizing longer with
  | nil =>
      rcases longer with _ | ⟨first, _ | ⟨second, _ | ⟨third, _ | ⟨fourth, rest⟩⟩⟩⟩
      · simp
      · simp [Continues, closing]
      · simp [Continues, closing]
      · simp [Continues, closing]
      · constructor
        · intro start
          simp only [closing, List.nil_append, List.cons_append, List.cons_prefix_cons] at start
          rcases start with ⟨rfl, rfl, rfl, rfl, _⟩
          exact Or.inr ⟨rest, rfl⟩
        · rintro (same | ⟨further, same⟩)
          · cases same
          · rw [same]
            simp
  | cons byte more ih =>
      cases longer with
      | nil =>
          constructor
          · intro start
            have bound := start.length_le
            simp only [List.length_append, List.length_cons, List.length_nil] at bound
            omega
          · rintro (same | ⟨rest, same⟩) <;> simp at same
      | cons other rest =>
          simp only [List.cons_append, List.cons_prefix_cons, ih rest, Continues, List.cons.injEq,
            List.append_assoc]
          constructor
          · rintro ⟨rfl, same | ⟨further, rfl⟩⟩
            · exact Or.inl ⟨rfl, same⟩
            · exact Or.inr ⟨further, rfl, rfl⟩
          · rintro (⟨rfl, same⟩ | ⟨further, rfl, rfl⟩)
            · exact ⟨rfl, Or.inl same⟩
            · exact ⟨rfl, Or.inr ⟨further, rfl⟩⟩

theorem bracketed_prefix_iff (name longer : List UInt8) :
    bracketed name <+: bracketed longer ↔ name = longer ∨ Continues name longer := by
  rw [← closing_prefix_iff]
  simp [bracketed, List.append_assoc, List.prefix_append_right_inj]

def Typeable (line : List UInt8) : Prop := line.length < messageSize ∧ 0 ∉ line

instance (line : List UInt8) : Decidable (Typeable line) := inferInstanceAs (Decidable (_ ∧ _))

theorem continued_line (name longer : List UInt8) (short : longer.length ≤ 24)
    (nulFree : 0 ∉ longer) (continues : Continues name longer) :
    ∃ line, Typeable line ∧ chatText (bracketed name) line = chatText (bracketed longer) [] := by
  rcases continues with ⟨rest, rfl⟩
  have size : messageSize = 2048 := rfl
  refine ⟨rest ++ ascii "] : ", ⟨?_, ?_⟩, by simp [chatText, bracketed]⟩
  · simp only [List.length_append, closing_length] at short ⊢
    omega
  · simp only [List.mem_append, not_or] at nulFree ⊢
    exact ⟨nulFree.2, by decide⟩

/-- Two names can stand on one chat text exactly when they are the same or one
continues the other past its brackets. -/
theorem confusable_iff (name other : List UInt8) (short : name.length ≤ 24)
    (otherShort : other.length ≤ 24) (nulFree : 0 ∉ name ∧ 0 ∉ other) :
    (∃ line reply, Typeable line ∧ Typeable reply ∧
      chatText (bracketed name) line = chatText (bracketed other) reply) ↔
      name = other ∨ Continues name other ∨ Continues other name := by
  constructor
  · rintro ⟨line, reply, _, _, same⟩
    rcases chat_text_bracketed name line short with ⟨rest, spelled, _⟩
    rcases chat_text_bracketed other reply otherShort with ⟨more, otherSpelled, _⟩
    have first : bracketed name <+: chatText (bracketed name) line := ⟨rest, spelled.symm⟩
    have second : bracketed other <+: chatText (bracketed name) line :=
      ⟨more, (same.trans otherSpelled).symm⟩
    rcases List.prefix_or_prefix_of_prefix first second with shorter | longer
    · exact ((bracketed_prefix_iff name other).mp shorter).imp_right Or.inl
    · rcases (bracketed_prefix_iff other name).mp longer with rfl | continues
      · exact Or.inl rfl
      · exact Or.inr (Or.inr continues)
  · rintro (rfl | continues | continues)
    · exact ⟨[], [], by decide, by decide, rfl⟩
    · rcases continued_line name other otherShort nulFree.2 continues with ⟨line, typeable, same⟩
      exact ⟨line, [], typeable, by decide, same⟩
    · rcases continued_line other name short nulFree.1 continues with ⟨line, typeable, same⟩
      exact ⟨[], line, by decide, typeable, same.symm⟩

theorem server_impersonated :
    ∃ line reply, Typeable line ∧ Typeable reply ∧
      chatText (bracketed (ascii "Server")) line =
        chatText (bracketed (ascii "Server] : bye")) reply :=
  (confusable_iff _ _ (by decide) (by decide) (by decide)).mpr
    (Or.inr (Or.inl ⟨ascii "bye", rfl⟩))

end Names

section Readers

structure PlainNames (roster : Roster ι) (answer : ι → List UInt8) : Prop where
  answered : ∀ i, roster.speaker (some i) = bracketed (answer i)
  plain : ∀ i, 93 ∉ answer i
  distinct : Function.Injective answer
  notServer : ∀ i, answer i ≠ ascii "Server"

def speakerName (answer : ι → List UInt8) : Option ι → List UInt8
  | none => ascii "Server"
  | some i => answer i

variable {roster : Roster ι} {answer : ι → List UInt8}

omit [DecidableEq ι] in
theorem speaker_bracketed (names : PlainNames roster answer) (author : Option ι) :
    roster.speaker author = bracketed (speakerName answer author) ∧
      (speakerName answer author).length ≤ 24 ∧ 93 ∉ speakerName answer author := by
  cases author with
  | none =>
      have spelled : cstring serverUserName.bytes = bracketed (ascii "Server") := by decide
      have bounds : (ascii "Server").length ≤ 24 ∧ 93 ∉ ascii "Server" := by decide
      exact ⟨spelled, bounds⟩
  | some i =>
      refine ⟨names.answered i, ?_, names.plain i⟩
      have short := buffer_text_lt _ (holds_cstring _ (roster.name i).terminated)
      have total := bracketed_length (answer i)
      rw [← names.answered i] at total
      have size : userNameSize = 30 := rfl
      change (cstring (roster.name i).buffer.bytes).length = _ at total
      change (answer i).length ≤ 24
      omega

omit [DecidableEq ι] in
theorem speaker_names_distinct (names : PlainNames roster answer) :
    Function.Injective (speakerName answer) := by
  intro first second same
  cases first with
  | none =>
      cases second with
      | none => rfl
      | some j => exact absurd same.symm (names.notServer j)
  | some i =>
      cases second with
      | none => exact absurd same (names.notServer i)
      | some j => exact congrArg some (names.distinct same)

/-- Among plain names the one in the brackets tells who composed the text. -/
theorem speaker_recovered (roster : Roster ι) {allowed : Network ι → NetworkEvent ι → Prop}
    (names : PlainNames roster answer) (typed : ι → List UInt8) (typedAtServer : List UInt8)
    (net : Network ι)
    (reached : Runs.Reach (networkStep roster) allowed (.start typed typedAtServer) net)
    (i : ι) (text : List UInt8) (displayed : text ∈ (net.client i).displayed) :
    ∃ author, author ≠ some i ∧ (author, terminated text) ∈ net.log ∧
      ∀ other, speakerName answer other = namedIn text ↔ other = author := by
  rcases displayed_logged roster typed typedAtServer net reached i text displayed
    with ⟨author, foreigner, logged⟩
  rcases logged_spoken roster typed typedAtServer net reached author _ logged
    with ⟨line, _, same⟩
  rcases speaker_bracketed names author with ⟨spelled, short, plain⟩
  have read : namedIn text = speakerName answer author := by
    rw [List.append_cancel_right same, spelled]
    exact named_in_chat _ line short plain
  refine ⟨author, foreigner, logged, ?_⟩
  intro other
  rw [read]
  exact (speaker_names_distinct names).eq_iff

end Readers

theorem named_clients_plain :
    PlainNames namedClients (fun i => if i then ascii "B" else ascii "A") where
  answered := by decide
  plain := by decide
  distinct := by
    unfold Function.Injective
    decide
  notServer := by decide

theorem first_client_recovered :
    ∃ net, ∃ author, (author, terminated (ascii "[A] : hi")) ∈ (net : Network Bool).log ∧
      ∀ other, speakerName (fun i => if i then ascii "B" else ascii "A") other = ascii "A" ↔
        other = author := by
  have ran : (Runs.follow (networkStep namedClients) Patient
      (.start linesOf (ascii "ho" ++ [10])) joinedFirst).map
        (fun net => decide (ascii "[A] : hi" ∈ (net.client true).displayed)) =
      some true := by decide +kernel
  rcases Option.map_eq_some_iff.mp ran with ⟨net, followed, displayed⟩
  rcases speaker_recovered namedClients named_clients_plain linesOf (ascii "ho" ++ [10]) net
    (Runs.reach_follow joinedFirst .start followed) true _ (of_decide_eq_true displayed)
    with ⟨author, _, logged, recovered⟩
  exact ⟨net, author, logged, recovered⟩

end DrakNet
