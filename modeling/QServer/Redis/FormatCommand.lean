import QServer.Lib.Resp

/-
This file models `Connection::redisvFormatCommand` in `commlib/redis/connection.cpp`.
-/

namespace QServer
open Wire

/-- A variable argument. A pointer comes with the bytes that can be read at it. -/
inductive VaArg
  | pointer (memory : Bytes)
  | size (value : UInt64)
  | int (value : Int32)
  | long (value : Int64)
  | longLong (value : Int64)
  | double (bits : UInt64)

inductive NumberType
  | int
  | long
  | longLong
  | double
  deriving DecidableEq

def VaArg.isNumber : VaArg → NumberType → Bool
  | .int _, .int => true
  | .long _, .long => true
  | .longLong _, .longLong => true
  | .double _, .double => true
  | _, _ => false

/-- The negative results, and the runs for which C defines no behavior. -/
inductive FormatFailure
  | memoryErr
  | formatErr
  | undefined

/-- `strlen` finds the end of the text. -/
def cString (memory : Bytes) : Option Bytes :=
  if (0 : UInt8) ∈ memory then some (memory.takeWhile (· ≠ 0)) else none

/-- A zero ends the text, whatever follows it. -/
theorem cString_zero (front rest : Bytes) :
    cString (front ++ 0 :: rest) = some (front.takeWhile (· ≠ 0)) := by
  have ended : (0 : UInt8) ∈ front ++ 0 :: rest :=
    List.mem_append_right _ List.mem_cons_self
  rw [cString, if_pos ended, List.takeWhile_append]
  split_ifs with whole
  · rw [(List.takeWhile_prefix _).eq_of_length whole]
    simp
  · rfl

/-- What follows a percent sign. A number carries the text of `_format`. -/
inductive Directive
  | string
  | binary
  | percent
  | number (format : Bytes) (type : NumberType)
  | overlong (type : NumberType)

namespace FormatCommand

def intfmts : Bytes := ['d', 'i', 'o', 'u', 'x', 'X'].map Char.toUInt8

def doublefmts : Bytes := ['e', 'E', 'f', 'F', 'g', 'G', 'a', 'A'].map Char.toUInt8

def flags : Bytes := ['#', '0', '-', '+', ' '].map Char.toUInt8

/-- The result of `strchr` is not null at the end of the format, since it finds the terminator. -/
def strchr (set : Bytes) (p : Bytes) : Bool :=
  match p.head? with
  | none => true
  | some byte => set.contains byte

/-- The pointer goes over the flags, the field width and the precision. -/
def skipModifiers (p : Bytes) : Bytes :=
  let p := (p.dropWhile flags.contains).dropWhile Resp.isDigit
  if p.head? = some '.'.toUInt8 then p.tail.dropWhile Resp.isDigit else p

/-- After a size the terminator does not count as a conversion. -/
def sized (type : NumberType) (p : Bytes) : Option (NumberType × Bytes) :=
  if p ≠ [] ∧ strchr intfmts p then some (type, p) else none

/-- The type of the number, with the pointer at the last character of the conversion. -/
def conversion (p : Bytes) : Option (NumberType × Bytes) :=
  if strchr intfmts p then some (.int, p)
  else if strchr doublefmts p then some (.double, p)
  else if p.take 2 = [ 'h'.toUInt8, 'h'.toUInt8] then sized .int (p.drop 2)
  else if p.take 1 = [ 'h'.toUInt8] then sized .int (p.drop 1)
  else if p.take 2 = [ 'l'.toUInt8, 'l'.toUInt8] then sized .longLong (p.drop 2)
  else if p.take 1 = [ 'l'.toUInt8] then sized .long (p.drop 1)
  else none

/-- The directive at `c + 1` and the pointer behind it. -/
def directive : Bytes → Except FormatFailure (Directive × Bytes)
  | [] => .error .undefined
  | byte :: rest =>
      if byte = 's'.toUInt8 then .ok (.string, rest)
      else if byte = 'b'.toUInt8 then .ok (.binary, rest)
      else if byte = '%'.toUInt8 then .ok (.percent, rest)
      else
        match conversion (skipModifiers (byte :: rest)) with
        | none => .error .formatErr
        | some (type, last) =>
            let length := (byte :: rest).length + 2 - last.length
            if length < 14 then
              -- A conversion of the terminator moves the pointer behind the format.
              if last = [] then .error .undefined
              else .ok (.number ('%'.toUInt8 :: (byte :: rest).take (length - 1)) type, last.tail)
            -- It does not fit into `_format`, and the pointer only goes over two characters.
            else .ok (.overlong type, rest)

/-- The directive takes its arguments. The text of a number is the matter of `vsnprintf`. -/
def expand (print : Bytes → VaArg → Bytes) :
    Directive → List VaArg → Except FormatFailure (Bytes × List VaArg)
  | .string, .pointer memory :: ap =>
      match cString memory with
      | some text => .ok (text, ap)
      | none => .error .undefined
  | .binary, .pointer memory :: .size size :: ap =>
      if size.toNat ≤ memory.length then .ok (memory.take size.toNat, ap) else .error .undefined
  | .percent, ap => .ok (['%'.toUInt8], ap)
  | .number format type, arg :: ap =>
      if arg.isNumber type then .ok (print format arg, ap) else .error .undefined
  | .overlong type, arg :: ap =>
      if arg.isNumber type then .ok ([], ap) else .error .undefined
  | _, _ => .error .undefined

/-- The variables of the loop. -/
structure Scan where
  curarg : Bytes
  touched : Bool
  curargv : List Bytes

namespace Scan

/-- A space, and the end of the format, end an argument that was touched. -/
def close (scan : Scan) : Scan :=
  if scan.touched then ⟨[], false, scan.curargv ++ [scan.curarg]⟩ else scan

/-- The argument counts as touched even when the text is empty. -/
def cat (scan : Scan) (text : Bytes) : Scan := ⟨scan.curarg ++ text, true, scan.curargv⟩

end Scan

theorem dropWhile_length (p : UInt8 → Bool) (text : Bytes) :
    (text.dropWhile p).length ≤ text.length := (List.dropWhile_suffix p).length_le

theorem skipModifiers_length (p : Bytes) : (skipModifiers p).length ≤ p.length := by
  have flagged := dropWhile_length flags.contains p
  have wide := dropWhile_length Resp.isDigit (p.dropWhile flags.contains)
  dsimp only [skipModifiers]
  split_ifs with precise
  · have digits := dropWhile_length Resp.isDigit
      ((p.dropWhile flags.contains).dropWhile Resp.isDigit).tail
    rw [List.length_tail] at digits
    omega
  · omega

theorem sized_length {type found : NumberType} {p last : Bytes}
    (accepted : sized type p = some (found, last)) : last.length ≤ p.length := by
  unfold sized at accepted
  split_ifs at accepted
  cases accepted
  exact Nat.le_refl _

theorem conversion_length {type : NumberType} {p last : Bytes}
    (accepted : conversion p = some (type, last)) : last.length ≤ p.length := by
  unfold conversion at accepted
  split_ifs at accepted
  · cases accepted
    exact Nat.le_refl _
  · cases accepted
    exact Nat.le_refl _
  all_goals
    have shorter := sized_length accepted
    rw [List.length_drop] at shorter
    omega

/-- The pointer moves on. -/
theorem directive_length {p left : Bytes} {found : Directive}
    (accepted : directive p = .ok (found, left)) : left.length < p.length := by
  cases p with
  | nil => cases accepted
  | cons byte rest =>
      rw [directive] at accepted
      split_ifs at accepted
      · cases accepted
        exact Nat.lt_succ_self _
      · cases accepted
        exact Nat.lt_succ_self _
      · cases accepted
        exact Nat.lt_succ_self _
      · split at accepted
        · cases accepted
        · rename_i type last converted
          dsimp only at accepted
          split_ifs at accepted with short ended
          · cases accepted
            have within := conversion_length converted
            have before := skipModifiers_length (byte :: rest)
            have positive := List.length_pos_of_ne_nil ended
            rw [List.length_tail]
            omega
          · cases accepted
            exact Nat.lt_succ_self _

/-- The loop over the format. A percent sign at its end is a character like others. -/
def formatLoop (print : Bytes → VaArg → Bytes) (format : Bytes) (ap : List VaArg) (scan : Scan) :
    Except FormatFailure Scan :=
  match format with
  | [] => .ok scan
  | byte :: rest =>
      if byte ≠ '%'.toUInt8 ∨ rest = [] then
        if byte = ' '.toUInt8 then formatLoop print rest ap scan.close
        else formatLoop print rest ap (scan.cat [byte])
      else
        match _moved : directive rest with
        | .error failure => .error failure
        | .ok (meaning, left) =>
            match expand print meaning ap with
            | .error failure => .error failure
            | .ok (text, ap) => formatLoop print left ap (scan.cat text)
termination_by format.length
decreasing_by
  · exact Nat.lt_succ_self _
  · exact Nat.lt_succ_self _
  · exact Nat.lt_succ_of_lt (directive_length _moved)

def countDigits (v : Nat) : Nat :=
  if v < 10 then 1
  else if v < 100 then 2
  else if v < 1000 then 3
  else if v < 10000 then 4
  else countDigits (v / 10000) + 4
termination_by v
decreasing_by omega

def bulklen (len : Nat) : Nat := 1 + countDigits len + 2 + len + 2

/-- The sum that `totlen` would hold if it were no `int`. -/
def totlen (argv : List Bytes) : Nat :=
  (argv.map fun arg => bulklen arg.length).sum + (1 + countDigits argv.length + 2)

/-- The loop that writes the command. -/
def build (argv : List Bytes) : Bytes :=
  argv.foldl
    (fun cmd arg => cmd ++ '$'.toUInt8 :: Resp.decimal arg.length ++ Resp.crlf ++ arg ++ Resp.crlf)
    ('*'.toUInt8 :: Resp.decimal argv.length ++ Resp.crlf)

/-- A size that does not fit an `int` fails or has no defined outcome. -/
def emit (argv : List Bytes) : Except FormatFailure Bytes :=
  let size := Int.bmod (totlen argv) (2 ^ 32)
  -- A negative size is too much for `malloc`.
  if size < -1 then .error .memoryErr
  else if size = totlen argv ∧ size + 1 < 2 ^ 31 then .ok (build argv)
  -- The greatest `int` overflows, and another sum makes the loop write behind its memory.
  else .error .undefined

end FormatCommand

open FormatCommand

def redisvFormatCommand (print : Bytes → VaArg → Bytes) (format : Bytes) (ap : List VaArg) :
    Except FormatFailure Bytes :=
  (formatLoop print format ap ⟨[], false, []⟩).bind fun scan => emit scan.close.curargv

end QServer
