import QServer.Lib.ProtoCodec
import Mathlib.Data.Nat.Digits.Lemmas

/-
This file is the request format of RESP, an array of bulk strings, with a reader of the stream.
-/

namespace Resp
open Wire

def crlf : Bytes := [13, 10]

section Numbers

def digit (value : Nat) : UInt8 := UInt8.ofNat (48 + value)

def digitValue (byte : UInt8) : Nat := byte.toNat - 48

def isDigit (byte : UInt8) : Bool := 48 ≤ byte.toNat && byte.toNat ≤ 57

/-- The number without leading zeros. -/
def decimal (value : Nat) : Bytes :=
  if value = 0 then [digit 0] else (Nat.digits 10 value).reverse.map digit

def number (text : Bytes) : Nat := Nat.ofDigits 10 (text.reverse.map digitValue)

theorem digit_toNat {value : Nat} (small : value < 10) : (digit value).toNat = 48 + value := by
  rw [digit, UInt8.toNat_ofNat']
  omega

theorem digitValue_digit {value : Nat} (small : value < 10) : digitValue (digit value) = value := by
  rw [digitValue, digit_toNat small]
  omega

theorem isDigit_digit {value : Nat} (small : value < 10) : isDigit (digit value) = true := by
  rw [isDigit, digit_toNat small, Bool.and_eq_true, decide_eq_true_eq, decide_eq_true_eq]
  omega

/-- Each byte of a number is a digit. -/
theorem mem_decimal {value : Nat} {byte : UInt8} (member : byte ∈ decimal value) :
    ∃ found < 10, byte = digit found := by
  unfold decimal at member
  split_ifs at member with zero
  · exact ⟨0, by decide, List.mem_singleton.mp member⟩
  · obtain ⟨found, among, rfl⟩ := List.mem_map.mp member
    exact ⟨found, Nat.digits_lt_base (by decide) (List.mem_reverse.mp among), rfl⟩

theorem all_isDigit_decimal (value : Nat) : (decimal value).all isDigit = true := by
  rw [List.all_eq_true]
  intro byte member
  obtain ⟨found, small, rfl⟩ := mem_decimal member
  exact isDigit_digit small

theorem decimal_ne_nil (value : Nat) : decimal value ≠ [] := by
  unfold decimal
  split_ifs with zero
  · exact List.cons_ne_nil _ _
  · intro empty
    exact zero (Nat.digits_eq_nil_iff_eq_zero.mp (by simpa using empty))

theorem return_notMem_decimal (value : Nat) : (13 : UInt8) ∉ decimal value := by
  intro member
  have digital := List.all_eq_true.mp (all_isDigit_decimal value) 13 member
  exact absurd digital (by decide)

theorem number_decimal (value : Nat) : number (decimal value) = value := by
  unfold decimal
  split_ifs with zero
  · rw [zero]
    decide
  · have same : (Nat.digits 10 value).map (digitValue ∘ digit) = (Nat.digits 10 value).map id := by
      apply List.map_congr_left
      intro found among
      exact digitValue_digit (Nat.digits_lt_base (by decide) among)
    rw [number, ← List.map_reverse, List.reverse_reverse, List.map_map, same,
      List.map_id, Nat.ofDigits_digits]

/-- One more digit for each factor of ten. -/
theorem length_decimal (value : Nat) : (decimal value).length = Nat.log 10 value + 1 := by
  unfold decimal
  split_ifs with zero
  · rw [zero, Nat.log_zero_right]
    rfl
  · rw [List.length_map, List.length_reverse, Nat.length_digits 10 value (by decide) zero]

end Numbers

section Reader

/-- The line up to the next line end. -/
def readLine : Bytes → Option (Bytes × Bytes)
  | [] => none
  | byte :: rest =>
      if byte = 13 ∧ rest.head? = some 10 then some ([], rest.tail)
      else (readLine rest).map fun line => (byte :: line.1, line.2)

/-- A line that is a number. -/
def readNumber (bytes : Bytes) : Option (Nat × Bytes) :=
  (readLine bytes).bind fun line =>
    if line.1 ≠ [] ∧ line.1.all isDigit then some (number line.1, line.2) else none

/-- The length tells where the text ends, whatever bytes it has. -/
def readBulk : Bytes → Option (Bytes × Bytes)
  | [] => none
  | byte :: rest =>
      if byte = 36 then
        (readNumber rest).bind fun length =>
          if (length.2.drop length.1).take 2 = crlf then
            some (length.2.take length.1, length.2.drop (length.1 + 2))
          else none
      else none

def readBulks : Nat → Bytes → Option (List Bytes × Bytes)
  | 0, bytes => some ([], bytes)
  | count + 1, bytes =>
      (readBulk bytes).bind fun text =>
        (readBulks count text.2).map fun texts => (text.1 :: texts.1, texts.2)

def readCommand : Bytes → Option (List Bytes × Bytes)
  | [] => none
  | byte :: rest =>
      if byte = 42 then (readNumber rest).bind fun count => readBulks count.1 count.2 else none

def readCommands : Nat → Bytes → Option (List (List Bytes))
  | _, [] => some []
  | 0, _ => none
  | fuel + 1, bytes =>
      (readCommand bytes).bind fun command =>
        (readCommands fuel command.2).map (command.1 :: ·)

/-- The commands of a connection. Each one takes a byte at least. -/
def readStream (bytes : Bytes) : Option (List (List Bytes)) := readCommands bytes.length bytes

end Reader

section Writer

def bulk (text : Bytes) : Bytes := 36 :: (decimal text.length ++ crlf ++ text ++ crlf)

def command (argv : List Bytes) : Bytes :=
  42 :: (decimal argv.length ++ crlf ++ argv.flatMap bulk)

theorem length_bulk (text : Bytes) :
    (bulk text).length = 1 + (decimal text.length).length + 2 + text.length + 2 := by
  simp only [bulk, crlf, List.length_cons, List.length_append, List.length_nil]
  omega

theorem length_command (argv : List Bytes) :
    (command argv).length =
      1 + (decimal argv.length).length + 2 + (argv.map fun text => (bulk text).length).sum := by
  simp only [command, crlf, List.length_cons, List.length_append, List.length_nil,
    List.length_flatMap]
  omega

end Writer

section RoundTrip

theorem readLine_append {text : Bytes} (unbroken : (13 : UInt8) ∉ text) (rest : Bytes) :
    readLine (text ++ crlf ++ rest) = some (text, rest) := by
  induction text with
  | nil => rfl
  | cons byte text ih =>
      rw [List.mem_cons, not_or] at unbroken
      have whole := ih unbroken.2
      have other : ¬(byte = 13 ∧ (text ++ crlf ++ rest).head? = some 10) :=
        fun broken => unbroken.1 broken.1.symm
      rw [List.cons_append, List.cons_append, readLine, if_neg other, whole]
      rfl

theorem readNumber_decimal (value : Nat) (rest : Bytes) :
    readNumber (decimal value ++ crlf ++ rest) = some (value, rest) := by
  have digital : decimal value ≠ [] ∧ (decimal value).all isDigit = true :=
    ⟨decimal_ne_nil value, all_isDigit_decimal value⟩
  rw [readNumber, readLine_append (return_notMem_decimal value), Option.bind_some, if_pos digital,
    number_decimal]

/-- A bulk string is read back whatever follows it. -/
theorem readBulk_bulk (text rest : Bytes) : readBulk (bulk text ++ rest) = some (text, rest) := by
  have shape : bulk text ++ rest = 36 :: (decimal text.length ++ crlf ++ (text ++ (crlf ++ rest))) := by
    simp only [bulk, List.cons_append, List.append_assoc]
  have beyond : (text ++ (crlf ++ rest)).drop (text.length + 2) = rest := by
    rw [← List.append_assoc]
    exact List.drop_left' (by simp [crlf])
  rw [shape, readBulk, if_pos rfl, readNumber_decimal, Option.bind_some, beyond, List.drop_left,
    List.take_left]
  exact if_pos rfl

theorem readBulks_flatMap (texts : List Bytes) (rest : Bytes) :
    readBulks texts.length (texts.flatMap bulk ++ rest) = some (texts, rest) := by
  induction texts with
  | nil => rfl
  | cons text texts ih =>
      rw [List.length_cons, readBulks, List.flatMap_cons, List.append_assoc, readBulk_bulk,
        Option.bind_some, ih, Option.map_some]

/-- A command is read back whatever follows it. -/
theorem readCommand_command (argv : List Bytes) (rest : Bytes) :
    readCommand (command argv ++ rest) = some (argv, rest) := by
  have shape : command argv ++ rest =
      42 :: (decimal argv.length ++ crlf ++ (argv.flatMap bulk ++ rest)) := by
    simp only [command, List.cons_append, List.append_assoc]
  rw [shape, readCommand, if_pos rfl, readNumber_decimal, Option.bind_some, readBulks_flatMap]

theorem readCommands_flatMap {fuel : Nat} (argvs : List (List Bytes))
    (enough : argvs.length ≤ fuel) :
    readCommands fuel (argvs.flatMap command) = some argvs := by
  induction argvs generalizing fuel with
  | nil => cases fuel <;> rfl
  | cons argv argvs ih =>
      cases fuel with
      | zero => cases enough
      | succ fuel =>
          have first := readCommand_command argv (argvs.flatMap command)
          have others := ih (Nat.le_of_succ_le_succ enough)
          rw [List.flatMap_cons]
          rw [command, List.cons_append] at first ⊢
          rw [readCommands, first, Option.bind_some, others, Option.map_some]
          exact List.cons_ne_nil _ _

/-- The reader of a stream finds the commands that were written, in their order. -/
theorem readStream_flatMap (argvs : List (List Bytes)) :
    readStream (argvs.flatMap command) = some argvs := by
  apply readCommands_flatMap
  induction argvs with
  | nil => exact Nat.le_refl 0
  | cons argv argvs ih =>
      rw [List.flatMap_cons, List.length_append, List.length_cons, command, List.length_cons]
      omega

end RoundTrip

end Resp
