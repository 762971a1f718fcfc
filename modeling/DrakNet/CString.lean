import Mathlib.Algebra.Group.Nat.Defs
import Mathlib.Data.List.TakeWhile

/-!
Fixed arrays of bytes and the functions of `<cstring>` that work on them. A
call that would touch a byte outside its array ends in a `Fault`. `Holds` is
the view the proofs take of an array: its bytes spell a text and a NUL comes
next. What stands behind that NUL is never looked at again.
-/

namespace CString

inductive Fault where
  | readPast
  | writePast
  | assertFailed
  deriving DecidableEq, Repr

structure Buffer (size : Nat) where
  bytes : List UInt8
  length_eq : bytes.length = size
  deriving DecidableEq

variable {size : Nat}

/-- `char name[size] = ...`: the bytes the initializer leaves out are zero. -/
def Buffer.init (size : Nat) (bytes : List UInt8) : Buffer size :=
  { bytes := (bytes ++ List.replicate size 0).take size
    length_eq := by simp }

def ascii (literal : String) : List UInt8 :=
  literal.toList.map fun char => UInt8.ofNat char.toNat

def cstring (data : List UInt8) : List UInt8 :=
  data.takeWhile (· ≠ 0)

def readString (data : List UInt8) : Except Fault (List UInt8) :=
  if 0 ∈ data then .ok (cstring data) else .error .readPast

/-- The bounded reads stop after `num` bytes even where no NUL has come. -/
def readStringN (data : List UInt8) (num : Nat) : Except Fault (List UInt8) :=
  if 0 ∈ data ∨ num ≤ data.length then .ok ((cstring data).take num)
  else .error .readPast

def store (dst : Buffer size) (offset : Nat) (bytes : List UInt8) :
    Except Fault (Buffer size) :=
  if fits : offset + bytes.length ≤ size then
    .ok { bytes := dst.bytes.take offset ++ bytes ++ dst.bytes.drop (offset + bytes.length)
          length_eq := by simp [dst.length_eq]; omega }
  else .error .writePast

def strlen (data : List UInt8) : Except Fault Nat := do
  let text ← readString data
  return text.length

def strcpy (dst : Buffer size) (src : List UInt8) : Except Fault (Buffer size) := do
  let text ← readString src
  store dst 0 (text ++ [0])

def strcat (dst : Buffer size) (src : List UInt8) : Except Fault (Buffer size) := do
  -- the terminator of dst is the first byte to be overwritten
  let offset ← strlen dst.bytes
  let text ← readString src
  store dst offset (text ++ [0])

/-- Writes exactly `num` bytes: a shorter text is padded with zeros, a text of
`num` bytes or more gets no terminator. -/
def strncpy (dst : Buffer size) (src : List UInt8) (num : Nat) : Except Fault (Buffer size) := do
  let text ← readStringN src num
  store dst 0 (text ++ List.replicate (num - text.length) 0)

/-- Appends at most `num` bytes of the text and always a terminator. -/
def strncat (dst : Buffer size) (src : List UInt8) (num : Nat) : Except Fault (Buffer size) := do
  let offset ← strlen dst.bytes
  let text ← readStringN src num
  store dst offset (text ++ [0])

def sprintfString (dst : Buffer size) (src : List UInt8) : Except Fault (Buffer size) :=
  strcpy dst src

def unsignedSub (bits left right : Nat) : Nat :=
  (left + 2 ^ bits - right) % 2 ^ bits

def Holds (data text : List UInt8) : Prop :=
  0 ∉ text ∧ ∃ rest, data = text ++ 0 :: rest

theorem cstring_nul_free (data : List UInt8) : 0 ∉ cstring data := by
  intro member
  have kept := List.mem_takeWhile_imp member
  simp at kept

theorem cstring_of_nul_free (text : List UInt8) (nulFree : 0 ∉ text) :
    cstring text = text := by
  refine List.takeWhile_eq_self_iff.mpr fun byte member => ?_
  have nonzero : byte ≠ 0 := fun same => nulFree (same ▸ member)
  simpa using nonzero

theorem cstring_append_nul (text rest : List UInt8) (nulFree : 0 ∉ text) :
    cstring (text ++ 0 :: rest) = text := by
  induction text with
  | nil => simp [cstring]
  | cons byte tail ih =>
      simp only [List.mem_cons, not_or] at nulFree
      have nonzero : byte ≠ 0 := Ne.symm nulFree.1
      simpa [cstring, nonzero] using ih nulFree.2

theorem holds_terminated (text : List UInt8) (nulFree : 0 ∉ text) : Holds (text ++ [0]) text :=
  ⟨nulFree, [], rfl⟩

theorem holds_cstring (data : List UInt8) (terminated : 0 ∈ data) : Holds data (cstring data) := by
  rcases List.eq_append_cons_of_mem terminated with ⟨text, rest, rfl, nulFree⟩
  rw [cstring_append_nul text rest nulFree]
  exact ⟨nulFree, rest, rfl⟩

theorem holds_iff (data text : List UInt8) : Holds data text ↔ 0 ∈ data ∧ cstring data = text := by
  constructor
  · rintro ⟨nulFree, rest, rfl⟩
    exact ⟨by simp, cstring_append_nul text rest nulFree⟩
  · rintro ⟨terminated, rfl⟩
    exact holds_cstring data terminated

theorem read_string_ok_iff (data text : List UInt8) :
    readString data = .ok text ↔ Holds data text := by
  rw [holds_iff, readString]
  by_cases terminated : 0 ∈ data <;> simp [terminated]

theorem strlen_holds {data text : List UInt8} (holds : Holds data text) :
    strlen data = .ok text.length := by
  simp [strlen, (read_string_ok_iff data text).mpr holds, bind, Except.bind, pure, Except.pure]

theorem holds_take {data text : List UInt8} (holds : Holds data text) :
    data.take (text.length + 1) = text ++ [0] := by
  rcases holds with ⟨_, rest, rfl⟩
  rw [List.take_length_add_append]
  rfl

theorem holds_length_lt {data text : List UInt8} (holds : Holds data text) :
    text.length < data.length := by
  rcases holds with ⟨_, rest, rfl⟩
  simp

theorem buffer_text_lt (buffer : Buffer size) {text : List UInt8}
    (holds : Holds buffer.bytes text) : text.length < size := by
  have inside := holds_length_lt holds
  rwa [buffer.length_eq] at inside

theorem read_string_n_holds {data text : List UInt8} (holds : Holds data text) (num : Nat) :
    readStringN data num = .ok (text.take num) := by
  rcases (holds_iff data text).mp holds with ⟨terminated, rfl⟩
  simp [readStringN, terminated]

theorem holds_bytes_take {data text : List UInt8} (holds : Holds data text) :
    data.take text.length = text := by
  rcases holds with ⟨_, rest, rfl⟩
  simp

theorem store_ok (dst : Buffer size) (offset : Nat) (bytes : List UInt8)
    (fits : offset + bytes.length ≤ size) :
    ∃ buffer, store dst offset bytes = .ok buffer ∧ buffer.bytes =
      dst.bytes.take offset ++ bytes ++ dst.bytes.drop (offset + bytes.length) := by
  rw [store, dif_pos fits]
  exact ⟨_, rfl, rfl⟩

theorem stored_terminated (dst buffer : Buffer size) (offset : Nat) (text : List UInt8)
    (stored : store dst offset (text ++ [0]) = .ok buffer) : 0 ∈ buffer.bytes := by
  unfold store at stored
  split at stored
  · cases stored
    simp
  · cases stored

/-- Storing a terminated tail right behind the bytes of `head` leaves the
array holding both, whatever stood there before. -/
theorem store_holds (dst : Buffer size) (head tail : List UInt8)
    (kept : dst.bytes.take head.length = head) (headFree : 0 ∉ head) (tailFree : 0 ∉ tail)
    (fits : head.length + tail.length + 1 ≤ size) :
    ∃ buffer, store dst head.length (tail ++ [0]) = .ok buffer ∧
      Holds buffer.bytes (head ++ tail) := by
  obtain ⟨buffer, stored, spelled⟩ :=
    store_ok dst head.length (tail ++ [0]) (by simpa [Nat.add_assoc] using fits)
  refine ⟨buffer, stored, by simp [headFree, tailFree], ?_⟩
  rw [spelled, kept]
  exact ⟨dst.bytes.drop (head.length + (tail ++ [0]).length), by simp⟩

theorem store_overflow (dst : Buffer size) (offset : Nat) (bytes : List UInt8)
    (past : size < offset + bytes.length) : store dst offset bytes = .error .writePast := by
  rw [store, dif_neg (by omega)]

theorem strcpy_holds (dst : Buffer size) {src text : List UInt8} (holds : Holds src text)
    (fits : text.length + 1 ≤ size) :
    ∃ buffer, strcpy dst src = .ok buffer ∧ Holds buffer.bytes text := by
  rcases store_holds dst [] text (by simp) (by simp) holds.1 (by simpa) with ⟨buffer, stored, spelled⟩
  refine ⟨buffer, ?_, by simpa using spelled⟩
  simpa [strcpy, (read_string_ok_iff src text).mpr holds, bind, Except.bind] using stored

theorem strcpy_overflow (dst : Buffer size) {src text : List UInt8} (holds : Holds src text)
    (past : size < text.length + 1) : strcpy dst src = .error .writePast := by
  have overflow := store_overflow dst 0 (text ++ [0]) (by simpa using past)
  simpa [strcpy, (read_string_ok_iff src text).mpr holds, bind, Except.bind] using overflow

theorem strcat_holds (dst : Buffer size) {src head text : List UInt8}
    (base : Holds dst.bytes head) (holds : Holds src text)
    (fits : head.length + text.length + 1 ≤ size) :
    ∃ buffer, strcat dst src = .ok buffer ∧ Holds buffer.bytes (head ++ text) := by
  obtain ⟨buffer, stored, spelled⟩ :=
    store_holds dst head text (holds_bytes_take base) base.1 holds.1 fits
  refine ⟨buffer, ?_, spelled⟩
  simpa [strcat, strlen_holds base, (read_string_ok_iff src text).mpr holds, bind, Except.bind]
    using stored

theorem strcat_overflow (dst : Buffer size) {src head text : List UInt8}
    (base : Holds dst.bytes head) (holds : Holds src text)
    (past : size < head.length + text.length + 1) : strcat dst src = .error .writePast := by
  have overflow := store_overflow dst head.length (text ++ [0]) (by simp; omega)
  simpa [strcat, strlen_holds base, (read_string_ok_iff src text).mpr holds, bind, Except.bind]
    using overflow

theorem strncpy_holds (dst : Buffer size) {src text : List UInt8} {num : Nat}
    (holds : Holds src text) (short : text.length < num) (fits : num ≤ size) :
    ∃ buffer, strncpy dst src num = .ok buffer ∧ Holds buffer.bytes text := by
  have whole : text.take num = text := List.take_of_length_le (Nat.le_of_lt short)
  have padding : List.replicate (num - text.length) (0 : UInt8) =
      0 :: List.replicate (num - text.length - 1) 0 := by
    rw [← List.replicate_succ]
    congr 1
    omega
  obtain ⟨buffer, stored, spelled⟩ :=
    store_ok dst 0 (text ++ List.replicate (num - text.length) 0) (by simp; omega)
  refine ⟨buffer, ?_, holds.1, ?_⟩
  · simpa [strncpy, read_string_n_holds holds, whole, bind, Except.bind] using stored
  · rw [spelled, padding, List.take_zero, List.nil_append, List.append_assoc, List.cons_append]
    exact ⟨_, rfl⟩

theorem strncat_holds (dst : Buffer size) {src head text : List UInt8} {num : Nat}
    (base : Holds dst.bytes head) (holds : Holds src text)
    (fits : head.length + (text.take num).length + 1 ≤ size) :
    ∃ buffer, strncat dst src num = .ok buffer ∧ Holds buffer.bytes (head ++ text.take num) := by
  have cutFree : 0 ∉ text.take num := fun member => holds.1 (List.mem_of_mem_take member)
  obtain ⟨buffer, stored, spelled⟩ :=
    store_holds dst head (text.take num) (holds_bytes_take base) base.1 cutFree fits
  refine ⟨buffer, ?_, spelled⟩
  simpa [strncat, strlen_holds base, read_string_n_holds holds, bind, Except.bind] using stored

theorem nul_within_iff (data : List UInt8) (num : Nat) :
    0 ∈ data.take num ↔ 0 ∈ data ∧ (cstring data).length < num := by
  constructor
  · intro within
    -- the first NUL of all is no later than the one found in front
    have terminated := List.mem_of_mem_take within
    rcases List.eq_append_cons_of_mem terminated with ⟨text, rest, rfl, nulFree⟩
    rw [cstring_append_nul text rest nulFree]
    refine ⟨terminated, Nat.lt_of_not_le fun short => nulFree ?_⟩
    rw [List.take_append_of_le_length short] at within
    exact List.mem_of_mem_take within
  · rintro ⟨terminated, inside⟩
    rcases List.eq_append_cons_of_mem terminated with ⟨text, rest, rfl, nulFree⟩
    rw [cstring_append_nul text rest nulFree] at inside
    rcases Nat.exists_eq_add_of_lt inside with ⟨more, rfl⟩
    rw [Nat.add_assoc, List.take_length_add_append]
    simp

theorem unsigned_sub_exact {bits left right : Nat} (order : right ≤ left)
    (bounded : left < 2 ^ bits) : unsignedSub bits left right = left - right := by
  have shifted : left + 2 ^ bits - right = (left - right) + 2 ^ bits := by omega
  rw [unsignedSub, shifted, Nat.add_mod_right]
  exact Nat.mod_eq_of_lt (by omega)

end CString
