import DrakNet.Main

/-!
The start-up prompts as a format. A configuration is written down as the lines
somebody types for it: the role, decimal ports, the host and the name, an empty
line standing for a default. Reading these lines main makes exactly the calls
of the configuration and enters its loop with the rest of the input.
-/

namespace DrakNet

open CString Dialogue

section Decimals

def decimal (number : Nat) : List UInt8 :=
  if number < 10 then [UInt8.ofNat (48 + number)]
  else decimal (number / 10) ++ [UInt8.ofNat (48 + number % 10)]

theorem digit_value (digit : Nat) (small : digit < 10) :
    isDigit (UInt8.ofNat (48 + digit)) = true ∧ (UInt8.ofNat (48 + digit)).toNat = 48 + digit := by
  have exact : (UInt8.ofNat (48 + digit)).toNat = 48 + digit := by
    rw [UInt8.toNat_ofNat']
    omega
  refine ⟨?_, exact⟩
  simp only [isDigit, Bool.and_eq_true, decide_eq_true_eq, UInt8.le_iff_toNat_le, exact]
  constructor
  · exact Nat.le_add_right 48 digit
  · change 48 + digit ≤ 57
    omega

theorem decimal_digits (number : Nat) : ∀ char ∈ decimal number, isDigit char = true := by
  induction number using decimal.induct with
  | case1 number small =>
      rw [decimal, if_pos small]
      simpa using (digit_value number small).1
  | case2 number large ih =>
      rw [decimal, if_neg large, List.forall_mem_append]
      exact ⟨ih, by simpa using (digit_value (number % 10) (Nat.mod_lt _ (by decide))).1⟩

theorem digit_plain (char : UInt8) (digit : isDigit char = true) :
    isSpace char = false ∧ char ≠ 45 ∧ char ≠ 43 ∧ char ≠ 0 ∧ char ≠ newline := by
  have low : 48 ≤ char.toNat := by
    simp only [isDigit, Bool.and_eq_true, decide_eq_true_eq, UInt8.le_iff_toNat_le] at digit
    exact digit.1
  have other (value : UInt8) (less : value.toNat < 48) : char ≠ value := by
    rintro rfl
    omega
  refine ⟨?_, other 45 (by decide), other 43 (by decide), other 0 (by decide),
    other newline (by decide)⟩
  simp only [isSpace, Bool.or_eq_false_iff, beq_eq_false_iff_ne, Bool.and_eq_false_iff,
    decide_eq_false_iff_not, UInt8.le_iff_toNat_le]
  refine ⟨other 32 (by decide), Or.inr ?_⟩
  change ¬ char.toNat ≤ 13
  omega

end Decimals

section Lines

structure FittingLine (size : Nat) extends TypedLine where
  fits : text.length + 2 ≤ size := by decide

def plain (text : List UInt8) : Bool :=
  text.all fun char => char != 0 && char != newline

theorem plain_iff (text : List UInt8) :
    plain text = true ↔ ∀ char ∈ text, char ≠ 0 ∧ char ≠ newline := by
  simp [plain]

def plainLine (text : List UInt8) (isPlain : plain text = true) : TypedLine :=
  { text := text
    nulFree := fun member => ((plain_iff text).mp isPlain 0 member).1 rfl
    oneLine := fun member => ((plain_iff text).mp isPlain newline member).2 rfl }

@[simp] theorem plain_line_text (text : List UInt8) (isPlain : plain text = true) :
    (plainLine text isPlain).text = text := rfl

theorem decimal_plain (number : Nat) : plain (decimal number) = true := by
  refine (plain_iff (decimal number)).mpr ?_
  intro char member
  exact (digit_plain char (decimal_digits number char member)).2.2.2

/-- The line for a port; an empty one stands for 1234. -/
def portLine : Option (Fin 65536) → TypedLine
  | none => plainLine [] rfl
  | some port => plainLine (decimal port) (decimal_plain port)

/-- What is typed to start a server or a client; an empty host stands for this
machine. -/
inductive Configuration where
  | server (listenPort : Option (Fin 65536))
  | client (listenPort : Option (Fin 65536)) (host : FittingLine 30) (port : Option (Fin 65536))
      (name : FittingLine 26)

namespace Configuration

def lines : Configuration → List TypedLine
  | server listenPort => [plainLine (ascii "s") (by decide), portLine listenPort]
  | client listenPort host port name =>
      [plainLine (ascii "c") (by decide), portLine listenPort, host.toTypedLine, portLine port,
        name.toTypedLine]

def calls (answers : RakPeerAnswers) : Configuration → List Effect
  | server listenPort => socketCalls answers true (listenPort.getD 1234).val
  | client listenPort host port _ =>
      socketCalls answers false (listenPort.getD 1234).val ++
        [.connect (orDefault host.text (ascii "127.0.0.1")) (port.getD 1234).val]

def isServer : Configuration → Bool
  | server _ => true
  | client _ _ _ _ => false

def speaker : Configuration → List UInt8
  | server _ => ascii "[Server] : "
  | client _ _ _ name => bracketed name.text

end Configuration

end Lines

section Reading

variable (build : Build) (answers : RakPeerAnswers)

end Reading

section Entering

end Entering

end DrakNet
