import QServer.Lib.ProtoCodec
import Mathlib.Tactic.Common

/-
This file is the wire format of proto3 for messages of varints and strings.
-/

namespace Wire

/-- The check of a string field. -/
def validUtf8 (text : Bytes) : Bool := (ByteArray.mk text.toArray).validateUTF8

theorem validUtf8_nil : validUtf8 [] = true := by decide +kernel

inductive Value
  | varint (value : Nat)
  | text (text : Bytes)

structure Field where
  number : Nat
  value : Value

/-- A message type: its written fields, its default, and the effect of a field. -/
structure Layout (Message : Type) where
  fields : Message → List Field
  unset : Message
  merge : Message → Field → Message

/-- A field of a default value is not written. -/
def varintField (number value : Nat) : List Field :=
  if value = 0 then [] else [⟨number, .varint value⟩]

def textField (number : Nat) (text : Bytes) : List Field :=
  if text = [] then [] else [⟨number, .text text⟩]

/-- A string field must hold valid UTF-8. -/
def Field.readable (field : Field) : Bool :=
  match field.value with
  | .varint _ => true
  | .text text => validUtf8 text

namespace Layout

variable {Message : Type}

/-- The fields are merged up to the first one that is not readable. -/
def read (layout : Layout Message) (keepsBad : Bool) : Message → List Field → Message × Bool
  | message, [] => (message, true)
  | message, field :: rest =>
      if field.readable then layout.read keepsBad (layout.merge message field) rest
      -- Whether this field is kept is a matter of the generated code.
      else (if keepsBad then layout.merge message field else message, false)

/-- The default value of a number is not written and is not missed. -/
theorem read_varintField {layout : Layout Message} {keepsBad : Bool} {message : Message}
    {number value : Nat} {rest : List Field}
    (skipped : value = 0 → layout.merge message ⟨number, .varint value⟩ = message) :
    layout.read keepsBad message (varintField number value ++ rest) =
      layout.read keepsBad (layout.merge message ⟨number, .varint value⟩) rest := by
  unfold varintField
  split_ifs with zero
  · rw [skipped zero, List.nil_append]
  · rw [List.singleton_append, read, if_pos]
    rfl

/-- An empty string is not written, is not missed and is valid. -/
theorem read_textField {layout : Layout Message} {keepsBad : Bool} {message : Message}
    {number : Nat} {text : Bytes} {rest : List Field}
    (skipped : text = [] → layout.merge message ⟨number, .text text⟩ = message) :
    layout.read keepsBad message (textField number text ++ rest) =
      if validUtf8 text then layout.read keepsBad (layout.merge message ⟨number, .text text⟩) rest
      else (if keepsBad then layout.merge message ⟨number, .text text⟩ else message, false) := by
  unfold textField
  by_cases empty : text = []
  · have valid : validUtf8 text = true := empty ▸ validUtf8_nil
    rw [if_pos empty, if_pos valid, skipped empty, List.nil_append]
  · rw [if_neg empty, List.singleton_append, read]
    rfl

/-- What the documents of protocol buffers say about `Serialize` and `Parse`. -/
structure Obeyed (layout : Layout Message) (keepsBad : Bool) (codec : ProtoCodec Message Bytes) :
    Prop where
  parse : ∀ message, codec.parse (codec.serialize message) =
    layout.read keepsBad layout.unset (layout.fields message)
  empty : codec.parse [] = (layout.unset, true)

end Layout

section Varint

/-- Seven bits go into each byte. The count bounds the number of bytes. -/
def varintBytes : Nat → Nat → Bytes
  | 0, value => [UInt8.ofNat value]
  | count + 1, value =>
      if value < 128 then [UInt8.ofNat value]
      else UInt8.ofNat (value % 128 + 128) :: varintBytes count (value / 128)

def varint (value : Nat) : Bytes := varintBytes value value

def readVarint : Bytes → Option (Nat × Bytes)
  | [] => none
  | byte :: rest =>
      if byte.toNat < 128 then some (byte.toNat, rest)
      else (readVarint rest).map fun tail => (byte.toNat - 128 + 128 * tail.1, tail.2)

theorem readVarint_bytes {count value : Nat} (enough : value ≤ count) (rest : Bytes) :
    readVarint (varintBytes count value ++ rest) = some (value, rest) := by
  induction count generalizing value with
  | zero =>
      have none : value = 0 := by omega
      subst none
      rfl
  | succ count ih =>
      rw [varintBytes]
      split_ifs with small
      · have same : (UInt8.ofNat value).toNat = value := by
          rw [UInt8.toNat_ofNat']
          omega
        rw [List.singleton_append, readVarint, same, if_pos small]
      · have low : (UInt8.ofNat (value % 128 + 128)).toNat = value % 128 + 128 := by
          rw [UInt8.toNat_ofNat']
          omega
        have split : value % 128 + 128 - 128 + 128 * (value / 128) = value := by omega
        have tail : readVarint (varintBytes count (value / 128) ++ rest) =
            some (value / 128, rest) := ih (by omega)
        rw [List.cons_append, readVarint, low, if_neg (by omega), tail, Option.map_some, split]

theorem readVarint_varint (value : Nat) (rest : Bytes) :
    readVarint (varint value ++ rest) = some (value, rest) :=
  readVarint_bytes (Nat.le_refl value) rest

end Varint

section Fields

/-- The tag of a field holds its number and its wire type. -/
def Field.write (field : Field) : Bytes :=
  match field.value with
  | .varint value => varint (8 * field.number) ++ varint value
  | .text text => varint (8 * field.number + 2) ++ varint text.length ++ text

def readField (bytes : Bytes) : Option (Field × Bytes) :=
  (readVarint bytes).bind fun tag =>
    if tag.1 % 8 = 0 then
      (readVarint tag.2).map fun value => (⟨tag.1 / 8, .varint value.1⟩, value.2)
    else if tag.1 % 8 = 2 then
      (readVarint tag.2).bind fun length =>
        if length.1 ≤ length.2.length then
          some (⟨tag.1 / 8, .text (length.2.take length.1)⟩, length.2.drop length.1)
        else none
    else none

theorem readField_write (field : Field) (rest : Bytes) :
    readField (field.write ++ rest) = some (field, rest) := by
  obtain ⟨number, value⟩ := field
  cases value with
  | varint value =>
      have number' : 8 * number / 8 = number := by omega
      simp only [readField, Field.write, List.append_assoc, readVarint_varint, Option.bind_some,
        Nat.mul_mod_right, if_true, Option.map_some, number']
  | text text =>
      have wireType : (8 * number + 2) % 8 = 2 := by omega
      have number' : (8 * number + 2) / 8 = number := by omega
      simp [readField, Field.write, readVarint_varint, wireType, number']

theorem Field.write_ne_nil (field : Field) : field.write ≠ [] := by
  intro empty
  have readBack := readField_write field []
  rw [empty] at readBack
  cases readBack

end Fields

section Codec

variable {Message : Type} (layout : Layout Message) (keepsBad : Bool)

/-- The loop of `Parse`. A malformed field ends it. -/
def parseFields : Nat → Message → Bytes → Message × Bool
  | _, message, [] => (message, true)
  | 0, message, _ => (message, false)
  | count + 1, message, bytes =>
      match readField bytes with
      | none => (message, false)
      | some (field, rest) =>
          if field.readable then parseFields count (layout.merge message field) rest
          else (if keepsBad then layout.merge message field else message, false)

/-- The codec that writes and reads the wire format. -/
def wireCodec : ProtoCodec Message Bytes where
  serialize message := (layout.fields message).flatMap Field.write
  parse bytes := parseFields layout keepsBad bytes.length layout.unset bytes

variable {layout keepsBad}

/-- The loop reads the fields that were written. -/
theorem parseFields_write {count : Nat} {message : Message} (fields : List Field)
    (enough : fields.length ≤ count) :
    parseFields layout keepsBad count message (fields.flatMap Field.write) =
      layout.read keepsBad message fields := by
  induction fields generalizing count message with
  | nil => cases count <;> rfl
  | cons field rest ih =>
      cases count with
      | zero => cases enough
      | succ count =>
          have head := readField_write field (rest.flatMap Field.write)
          have more : parseFields layout keepsBad count (layout.merge message field)
              (rest.flatMap Field.write) = layout.read keepsBad (layout.merge message field) rest :=
            ih (Nat.le_of_succ_le_succ enough)
          obtain ⟨byte, tail, same⟩ := List.exists_cons_of_ne_nil field.write_ne_nil
          rw [List.flatMap_cons, Layout.read, ← more]
          rw [same, List.cons_append] at head ⊢
          rw [parseFields, head]
          exact List.cons_ne_nil _ _

theorem length_le_write (fields : List Field) :
    fields.length ≤ (fields.flatMap Field.write).length := by
  induction fields with
  | nil => exact Nat.le_refl 0
  | cons field rest ih =>
      have positive := List.length_pos_of_ne_nil field.write_ne_nil
      rw [List.flatMap_cons, List.length_append, List.length_cons]
      omega

/-- The wire format behaves as documented. -/
theorem wireCodec_obeyed : layout.Obeyed keepsBad (wireCodec layout keepsBad) :=
  ⟨fun _ => parseFields_write _ (length_le_write _), rfl⟩

end Codec

end Wire
