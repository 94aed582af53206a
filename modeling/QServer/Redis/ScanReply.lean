import QServer.Redis.ReplyParse
import Mathlib.Data.List.TakeWhile

/-
This file models `parse_scan_reply` of `commlib/redis/reply.h` and proves which cursors it keeps.
-/

namespace QServer
open Wire

/-- `isspace` in the C locale. -/
def isspace (byte : UInt8) : Bool := byte = 32 || (9 ≤ byte && byte ≤ 13)

/-- The digits after the sign, when the number fits into 64 bits. -/
def signedDigits (sign : Int) (rest : Bytes) : Option Int :=
  let digits := rest.takeWhile Resp.isDigit
  let value := sign * Resp.number digits
  if digits ≠ [] ∧ -2 ^ 63 ≤ value ∧ value < 2 ^ 63 then some value else none

/-- `std::stoll`, with none for its two exceptions. -/
def stoll (text : Bytes) : Option Int :=
  match text.dropWhile isspace with
  | [] => none
  | byte :: rest =>
      if byte = '-'.toUInt8 then signedDigits (-1) rest
      else if byte = '+'.toUInt8 then signedDigits 1 rest
      else signedDigits 1 (byte :: rest)

/-- A cursor with the elements that came with it. -/
structure ScanReply (Value : Type) where
  cursor : Int
  data : List Value

namespace ReplyParse

/-- `parse_scan_reply`. The cursor goes through the variable `new_cursor`, which is an `int`. -/
def parseScanReply {Value : Type} [ReplyParse (List Value)] (reply : RedisReply) :
    Except Bytes (ScanReply Value) :=
  match reply.element with
  | [cursorReply, dataReply] =>
      (parseString cursorReply).bind fun cursorStr =>
        match stoll cursorStr with
        | none => .error (ascii "Invalid cursor reply: " ++ cursorStr)
        | some cursor => (parse dataReply).map fun data => ⟨cursor.bmod (2 ^ 32), data⟩
  | _ => .error (ascii "Invalid scan reply")

instance {Value : Type} [ReplyParse (List Value)] : ReplyParse (ScanReply Value) :=
  ⟨parseScanReply⟩

end ReplyParse

/-- The reply of redis to `SCAN`. -/
def Reply.scan (cursor : Nat) (keys : List Bytes) : Reply :=
  .array [.string (Resp.decimal cursor), .array (keys.map .string)]

open ReplyParse SvrCommTrans

theorem signedDigits_decimal (value : Nat) :
    signedDigits 1 (Resp.decimal value) = if value < 2 ^ 63 then some (value : Int) else none := by
  have digits : (Resp.decimal value).takeWhile Resp.isDigit = Resp.decimal value :=
    List.takeWhile_eq_self_iff.mpr (List.all_eq_true.mp (Resp.all_isDigit_decimal value))
  rw [signedDigits, digits, Resp.number_decimal, one_mul]
  by_cases small : value < 2 ^ 63
  · rw [if_pos ⟨Resp.decimal_ne_nil value, by omega, by omega⟩, if_pos small]
  · rw [if_neg fun fits => small (by omega), if_neg small]

/-- A number is read back when it fits into 64 bits. -/
theorem stoll_decimal (value : Nat) :
    stoll (Resp.decimal value) = if value < 2 ^ 63 then some (value : Int) else none := by
  rw [← signedDigits_decimal]
  obtain ⟨byte, rest, same⟩ := List.exists_cons_of_ne_nil (Resp.decimal_ne_nil value)
  obtain ⟨digit, small, rfl⟩ : ∃ found < 10, byte = Resp.digit found :=
    Resp.mem_decimal (same ▸ List.mem_cons_self)
  have unspaced : ∀ found < 10, isspace (Resp.digit found) = false := by decide
  have unsigned : ∀ found < 10, Resp.digit found ≠ '-'.toUInt8 ∧ Resp.digit found ≠ '+'.toUInt8 := by
    decide
  have kept : (Resp.digit digit :: rest).dropWhile isspace = Resp.digit digit :: rest :=
    List.dropWhile_cons_of_neg (by simp [unspaced digit small])
  rw [stoll, same, kept]
  dsimp only
  rw [if_neg (unsigned digit small).1, if_neg (unsigned digit small).2]

theorem scan_survives (cursor : Nat) (keys : List Bytes) : (Reply.scan cursor keys).Survives := by
  intro reply member
  rcases List.mem_pair.mp member with rfl | rfl
  · trivial
  · refine Reply.allPlain_iff.mpr fun reply member => ?_
    obtain ⟨key, _, rfl⟩ := List.mem_map.mp member
    trivial

theorem parse_scan (cursor : Nat) (keys : List Bytes) :
    (parseScanReply (Reply.scan cursor keys).object : Except Bytes (ScanReply Bytes)) =
      if cursor < 2 ^ 63 then .ok ⟨(cursor : Int).bmod (2 ^ 32), keys⟩
      else .error (ascii "Invalid cursor reply: " ++ Resp.decimal cursor) := by
  have elements : parse (Reply.array (keys.map .string)).object = .ok keys :=
    ReplyCodec.parseElements_encode keys
  change (match stoll (Resp.decimal cursor) with
    | none => Except.error (ascii "Invalid cursor reply: " ++ Resp.decimal cursor)
    | some cursor => (parse (Reply.array (keys.map .string)).object).map fun data =>
        (⟨cursor.bmod (2 ^ 32), data⟩ : ScanReply Bytes)) = _
  rw [stoll_decimal, elements]
  by_cases small : cursor < 2 ^ 63
  · rw [if_pos small, if_pos small]
    rfl
  · rw [if_neg small, if_neg small]

theorem bmod_eq_iff (cursor : Nat) : (cursor : Int).bmod (2 ^ 32) = cursor ↔ cursor < 2 ^ 31 := by
  rw [Int.bmod_eq_iff (by decide)]
  omega

/-- What the caller of a `SCAN` gets of the reply of redis. -/
def Redis.scanned {Payload : Type} (codec : ProtoCodec RedisCmdRsp Payload)
    (request : MsgHead Payload) (junk : List Nat → Bool) (cursor : Nat) (keys : List Bytes) :
    ClientResult (ScanReply Bytes) :=
  Redis.parsed (proxied codec request junk (.scan cursor keys))

/-- A `SCAN` gets the cursor of redis exactly when it is below 2^31. -/
theorem scan_delivered {Payload : Type} {codec : ProtoCodec RedisCmdRsp Payload}
    (request : MsgHead Payload) {cursor : Nat} {keys : List Bytes}
    (roundTrips : codec.RoundTrips (TransRedisCmd.response (.scan cursor keys)))
    (junk : List Nat → Bool) :
    (Redis.scanned codec request junk cursor keys = .value ⟨cursor, keys⟩ ↔ cursor < 2 ^ 31) ∧
    (cursor < 2 ^ 63 → Redis.scanned codec request junk cursor keys =
      .value ⟨(cursor : Int).bmod (2 ^ 32), keys⟩) ∧
    (2 ^ 63 ≤ cursor → Redis.scanned codec request junk cursor keys =
      .thrown (ascii "Invalid cursor reply: " ++ Resp.decimal cursor)) := by
  have result : Redis.scanned codec request junk cursor keys =
      if cursor < 2 ^ 63 then .value ⟨(cursor : Int).bmod (2 ^ 32), keys⟩
      else .thrown (ascii "Invalid cursor reply: " ++ Resp.decimal cursor) := by
    rw [Redis.scanned, parsed_kept request roundTrips (scan_survives cursor keys)]
    have parsed : (parse (Reply.scan cursor keys).object : Except Bytes (ScanReply Bytes)) = _ :=
      parse_scan cursor keys
    rw [Redis.parsed, parsed]
    by_cases small : cursor < 2 ^ 63
    · rw [if_pos small, if_pos small]
    · rw [if_neg small, if_neg small]
  rw [result]
  refine ⟨?_, fun small => if_pos small, fun large => if_neg (by omega)⟩
  by_cases small : cursor < 2 ^ 63
  · rw [if_pos small, ← bmod_eq_iff]
    simp
  · rw [if_neg small]
    exact iff_of_false (fun same => by cases same) (by omega)

/-- The first cursor whose lower 32 bits are zero looks like the end of the iteration. -/
theorem scan_delivered_large :
    (Redis.scanned openCodec clientRequest (fun _ => true) (2 ^ 32) [[65]] =
      .value ⟨(2 ^ 32 : Nat), [[65]]⟩ ↔ 2 ^ 32 < 2 ^ 31) ∧
    (2 ^ 32 < 2 ^ 63 → Redis.scanned openCodec clientRequest (fun _ => true) (2 ^ 32) [[65]] =
      .value ⟨((2 ^ 32 : Nat) : Int).bmod (2 ^ 32), [[65]]⟩) ∧
    (2 ^ 63 ≤ 2 ^ 32 → Redis.scanned openCodec clientRequest (fun _ => true) (2 ^ 32) [[65]] =
      .thrown (ascii "Invalid cursor reply: " ++ Resp.decimal (2 ^ 32))) :=
  have roundTrips (rsp : RedisCmdRsp) : openCodec.RoundTrips rsp := rfl
  scan_delivered clientRequest (roundTrips _) fun _ => true

end QServer
