import QServer.Lib.Machine
import QServer.Redis.Sds

/-
This file proves that the strings stay inside of their blocks and hold the bytes that they get.
-/

namespace QServer
open Transition Wire Memory

theorem sdsReqType_bits {size : Nat} (small : size < 2 ^ 64) :
    size < 2 ^ (sdsReqType size).bits := by
  unfold sdsReqType
  split_ifs <;> simp only [SdsType.bits] <;> omega

theorem sdsAppendType_ne (size : Nat) : sdsAppendType size ≠ .type5 := by
  unfold sdsAppendType
  split_ifs with short
  · decide
  · exact short

theorem sdsAppendType_bits {size : Nat} (small : size < 2 ^ 64) :
    size < 2 ^ (sdsAppendType size).bits := by
  have fits := sdsReqType_bits small
  unfold sdsAppendType
  split_ifs with short
  · rw [short] at fits
    simp only [SdsType.bits] at fits ⊢
    omega
  · exact fits

theorem sizeT_of_lt {value : Nat} (small : value < 2 ^ 64) : sizeT value = value :=
  Nat.mod_eq_of_lt small

namespace Sds

variable {s : Sds} (heap : Heap)

def text (s : Sds) : Bytes := s.buf.take s.sdslen

/-- The header fits its kind, and the block has room for the terminator. -/
structure Roomy (s : Sds) : Prop where
  fits : s.sdsalloc < 2 ^ s.type.bits
  room : s.sdsalloc < s.buf.length
  small : s.buf.length ≤ addressSpace

/-- The string is terminated inside of its space. -/
structure Valid (s : Sds) : Prop extends Roomy s where
  within : s.sdslen ≤ s.sdsalloc
  nul : s.buf[s.sdslen]? = some 0

/-- The operation returns null for a refusal, or gives a valid string with the text. -/
def Gives (refusal : Prop) (result : Except SdsFailure Sds) (text : Bytes) : Prop :=
  refusal ∧ result = .error .null ∨ ∃ s, result = .ok s ∧ s.Valid ∧ s.text = text

/-- The allocator refuses some size up to the most that the length asks for. -/
def Refuses (length : Nat) : Prop :=
  ∃ size ≤ 2 * length + sdsMaxPrealloc + 18, heap.malloc size = none

theorem Refuses.mono {length more : Nat} (refuses : Refuses heap length) (order : length ≤ more) :
    Refuses heap more := by
  obtain ⟨size, bound, refused⟩ := refuses
  exact ⟨size, by omega, refused⟩

theorem Valid.text_length (valid : s.Valid) : s.text.length = s.sdslen := by
  have within := valid.within
  have room := valid.room
  rw [text, List.length_take]
  omega

theorem Valid.len_lt (valid : s.Valid) : s.sdslen < addressSpace := by
  have within := valid.within
  have room := valid.room
  have small := valid.small
  omega

theorem Valid.sdsavail (valid : s.Valid) : s.sdslen + s.sdsavail = s.sdsalloc := by
  obtain ⟨type, len, alloc, buf⟩ := s
  have within := valid.within
  have fits := valid.fits
  unfold sdsalloc sdslen at *
  unfold Sds.sdsavail
  cases type <;> simp only [reduceCtorEq, if_true, if_false, SdsType.bits] at * <;> omega

section Write

variable {place len : Nat} {bytes : Bytes}

theorem memcpy_of_write {buf : Bytes} (written : write s.buf place bytes = some buf) :
    s.memcpy place bytes = .ok { s with buf } := by
  rw [memcpy, written]

/-- A shorter length still fits into the header. -/
theorem Roomy.sdssetlen (roomy : s.Roomy) (within : len ≤ s.sdsalloc) {buf : Bytes}
    (same : buf.length = s.buf.length) (nul : buf[len]? = some 0) :
    (Sds.sdssetlen { s with buf } len).Valid ∧
      (Sds.sdssetlen { s with buf } len).text = buf.take len := by
  obtain ⟨type, oldLen, alloc, old⟩ := s
  have fits := roomy.fits
  have room := roomy.room
  have small := roomy.small
  have kept : len % 2 ^ type.bits = len := Nat.mod_eq_of_lt (lt_of_le_of_lt within fits)
  unfold sdsalloc at *
  simp only at *
  refine ⟨⟨⟨?_, ?_, ?_⟩, ?_, ?_⟩, ?_⟩
  · simp only [Sds.sdssetlen, sdsalloc, kept]
    split_ifs at * <;> omega
  · simp only [Sds.sdssetlen, sdsalloc, kept]
    split_ifs at * <;> omega
  · simp only [Sds.sdssetlen]
    omega
  · simp only [Sds.sdssetlen, sdsalloc, sdslen, kept]
    split_ifs at * <;> omega
  · simp only [Sds.sdssetlen, sdslen, kept]
    exact nul
  · simp only [text, Sds.sdssetlen, sdslen, kept]

/-- There is room for bytes and a terminator in the space of a string. -/
theorem Roomy.writes (roomy : s.Roomy) (within : place + bytes.length ≤ s.sdsalloc) :
    ∃ buf final, write s.buf place bytes = some buf ∧
      write buf (place + bytes.length) [0] = some final ∧ final.length = s.buf.length ∧
      final.take (place + bytes.length) = s.buf.take place ++ bytes ∧
      final[place + bytes.length]? = some 0 := by
  have room := roomy.room
  have written := write_of_room (show place + bytes.length ≤ s.buf.length by omega)
  obtain ⟨buf, written⟩ : ∃ buf, write s.buf place bytes = some buf := ⟨_, written⟩
  have same := write_length written
  have ending : place + bytes.length + ([0] : Bytes).length ≤ buf.length := by
    simp only [List.length_singleton]
    omega
  obtain ⟨final, ended⟩ : ∃ final, write buf (place + bytes.length) [0] = some final :=
    ⟨_, write_of_room ending⟩
  refine ⟨buf, final, written, ended, (write_length ended).trans same, ?_, write_getElem? ended⟩
  rw [write_take_before ended (Nat.le_refl _), write_take written]

/-- The bytes, the length and the terminator of an append. -/
theorem Roomy.put (roomy : s.Roomy) (within : place + bytes.length ≤ s.sdsalloc) :
    ∃ after, ((s.memcpy place bytes).bind fun s =>
        (s.sdssetlen (place + bytes.length)).terminate (place + bytes.length)) = .ok after ∧
      after.Valid ∧ after.text = s.buf.take place ++ bytes := by
  obtain ⟨buf, final, written, ended, same, front, nul⟩ := roomy.writes within
  obtain ⟨valid, text⟩ := roomy.sdssetlen within same nul
  have ending : write (Sds.sdssetlen { s with buf } (place + bytes.length)).buf
    (place + bytes.length) [0] = some final := ended
  refine ⟨_, ?_, valid, text.trans front⟩
  rw [memcpy_of_write written, Except.bind, terminate, memcpy_of_write ending]
  rfl

/-- The bytes, the terminator and the length of a copy. -/
theorem Roomy.overwrite (roomy : s.Roomy) (within : bytes.length ≤ s.sdsalloc) :
    ∃ after, ((s.memcpy 0 bytes).bind fun s =>
        (s.terminate bytes.length).map fun s => s.sdssetlen bytes.length) = .ok after ∧
      after.Valid ∧ after.text = bytes := by
  have inside : 0 + bytes.length ≤ s.sdsalloc := by omega
  obtain ⟨buf, final, written, ended, same, front, nul⟩ := roomy.writes inside
  rw [Nat.zero_add] at ended front nul
  obtain ⟨valid, text⟩ := roomy.sdssetlen within same nul
  have ending : write ({ s with buf } : Sds).buf bytes.length [0] = some final := ended
  refine ⟨_, ?_, valid, text.trans front⟩
  rw [memcpy_of_write written, Except.bind, terminate, memcpy_of_write ending]
  rfl

end Write

section Move

variable {type : SdsType} {newlen : Nat}

/-- A string with the same bytes up to its terminator in another block. -/
theorem Valid.relocated (valid : s.Valid) {moved : Sds} (roomy : moved.Roomy)
    (within : s.sdslen ≤ moved.sdsalloc) (same : moved.sdslen = s.sdslen)
    (kept : moved.buf.take (s.sdslen + 1) = s.buf.take (s.sdslen + 1)) :
    moved.Valid ∧ moved.text = s.text := by
  have shorter := congrArg (List.take s.sdslen) kept
  rw [List.take_take, List.take_take, Nat.min_eq_left (Nat.le_succ _)] at shorter
  have last := congrArg (fun bytes => bytes[s.sdslen]?) kept
  simp only [List.getElem?_take, Nat.lt_succ_self, if_true] at last
  refine ⟨⟨roomy, ?_, ?_⟩, ?_⟩
  · rw [same]
    exact within
  · rw [same, last]
    exact valid.nul
  · rw [text, text, same]
    exact shorter

theorem sdssetalloc_facts (fits : newlen < 2 ^ s.type.bits)
    (short : s.type = .type5 → newlen = s.sdslen) :
    (s.sdssetalloc newlen).sdsalloc = newlen ∧ (s.sdssetalloc newlen).type = s.type ∧
      (s.sdssetalloc newlen).sdslen = s.sdslen ∧ (s.sdssetalloc newlen).buf = s.buf := by
  by_cases small : s.type = .type5
  · have same : s.sdssetalloc newlen = s := if_pos small
    rw [same]
    exact ⟨(if_pos small).trans (short small).symm, rfl, rfl, rfl⟩
  · have same : s.sdssetalloc newlen = { s with alloc := newlen % 2 ^ s.type.bits } := if_neg small
    rw [same]
    exact ⟨(if_neg small).trans (Nat.mod_eq_of_lt fits), rfl, rfl, rfl⟩

/-- The string stands in a block for the new length. -/
def Moved (s : Sds) (newlen : Nat) (moved : Sds) : Prop :=
  moved.Valid ∧ moved.text = s.text ∧ moved.sdslen = s.sdslen ∧ moved.sdsalloc = newlen

theorem Valid.resized (valid : s.Valid) {moved : Sds} (within : s.sdslen ≤ newlen)
    (fits : newlen < 2 ^ moved.type.bits) (short : moved.type = .type5 → newlen = s.sdslen)
    (same : moved.sdslen = s.sdslen) (length : moved.buf.length = newlen + 1)
    (small : newlen + 1 ≤ addressSpace)
    (kept : moved.buf.take (s.sdslen + 1) = s.buf.take (s.sdslen + 1)) :
    Moved s newlen (moved.sdssetalloc newlen) := by
  obtain ⟨alloc, type, len, buf⟩ := sdssetalloc_facts fits fun five => (short five).trans same.symm
  have roomy : (moved.sdssetalloc newlen).Roomy := by
    refine ⟨?_, ?_, ?_⟩
    · rw [alloc, type]
      exact fits
    · rw [alloc, buf]
      omega
    · rw [buf]
      omega
  have space : s.sdslen ≤ (moved.sdssetalloc newlen).sdsalloc := by rwa [alloc]
  have bytes : (moved.sdssetalloc newlen).buf.take (s.sdslen + 1) =
      s.buf.take (s.sdslen + 1) := by rwa [buf]
  obtain ⟨after, text⟩ := valid.relocated roomy space (len.trans same) bytes
  exact ⟨after, text, len.trans same, alloc⟩

/-- The block grows or shrinks in its place. -/
theorem Valid.reallocated (valid : s.Valid) (within : s.sdslen ≤ newlen)
    (fits : newlen < 2 ^ s.type.bits) (short : s.type = .type5 → newlen = s.sdslen) {block : Bytes}
    (granted : heap.realloc s.block (sdsHdrSize s.type + newlen + 1) = some block) :
    Moved s newlen (sdssetalloc { s with buf := block.drop (sdsHdrSize s.type) } newlen) := by
  obtain ⟨limit, length, old⟩ := Allocator.realloc_cases granted
  have room := valid.room
  have inside := valid.within
  have whole : s.block.length = sdsHdrSize s.type + s.buf.length := by
    rw [Sds.block, List.length_append, List.length_replicate]
  refine valid.resized within fits short rfl ?_ (by omega) ?_
  · rw [List.length_drop, length]
    omega
  · -- the bytes of the block stay up to the shorter of the two sizes
    have front := congrArg (fun bytes => (bytes.take (sdsHdrSize s.type + (s.sdslen + 1))).drop
      (sdsHdrSize s.type)) old
    simp only [List.take_take, whole] at front
    rw [Nat.min_eq_left (by omega), Nat.min_eq_left (by omega), ← List.take_drop,
      ← List.take_drop, Sds.block, List.drop_left' List.length_replicate] at front
    exact front

/-- The bytes are copied behind a header of another kind. -/
theorem Valid.copied (valid : s.Valid) (within : s.sdslen ≤ newlen)
    (fits : newlen < 2 ^ type.bits) (short : type = .type5 → newlen = s.sdslen) {block : Bytes}
    (granted : heap.malloc (sdsHdrSize type + newlen + 1) = some block) :
    ∃ moved, ((readMemory s.buf (s.sdslen + 1)).bind fun bytes =>
      (memcpy ⟨type, s.len, s.alloc, block.drop (sdsHdrSize type)⟩ 0 bytes).map fun moved =>
        (moved.sdssetlen s.sdslen).sdssetalloc newlen) = .ok moved ∧ Moved s newlen moved := by
  have limit := heap.limited _ block granted
  have length := heap.sized _ block granted
  have room := valid.room
  have inside := valid.within
  have bytes : (s.buf.take (s.sdslen + 1)).length = s.sdslen + 1 :=
    List.length_take_of_le (by omega)
  let fresh : Sds := ⟨type, s.len, s.alloc, block.drop (sdsHdrSize type)⟩
  have copying : 0 + (s.buf.take (s.sdslen + 1)).length ≤ fresh.buf.length := by
    change _ ≤ (block.drop (sdsHdrSize type)).length
    rw [bytes, List.length_drop, length]
    omega
  obtain ⟨buf, written⟩ : ∃ buf, write fresh.buf 0 (s.buf.take (s.sdslen + 1)) = some buf :=
    ⟨_, write_of_room copying⟩
  have read : readMemory s.buf (s.sdslen + 1) = .ok (s.buf.take (s.sdslen + 1)) :=
    if_pos (by omega)
  have fitting : s.sdslen % 2 ^ type.bits = s.sdslen :=
    Nat.mod_eq_of_lt (lt_of_le_of_lt within fits)
  refine ⟨(Sds.sdssetlen { fresh with buf } s.sdslen).sdssetalloc newlen, ?_,
    valid.resized within fits short fitting ?_ (by omega) ?_⟩
  · rw [read]
    change ((fresh.memcpy 0 (s.buf.take (s.sdslen + 1))).map fun moved =>
      (moved.sdssetlen s.sdslen).sdssetalloc newlen) = _
    rw [memcpy_of_write written]
    rfl
  · change buf.length = newlen + 1
    rw [write_length written, List.length_drop, length]
    omega
  · change buf.take (s.sdslen + 1) = _
    have front := write_take written
    rw [bytes, Nat.zero_add, List.take_zero, List.nil_append] at front
    exact front

/-- The move returns null for a refusal, or gives the string in a block for the new length. -/
theorem Valid.move (valid : s.Valid) (within : s.sdslen ≤ newlen)
    (fits : newlen < 2 ^ type.bits) (short : type = .type5 → newlen = s.sdslen)
    (small : newlen < 2 ^ 63) :
    (∃ size ≤ newlen + 18, heap.malloc size = none) ∧ s.move heap type newlen = .error .null ∨
      ∃ moved, s.move heap type newlen = .ok moved ∧ Moved s newlen moved := by
  have header : sdsHdrSize type ≤ 17 := by cases type <;> decide
  have size : sizeT (sdsHdrSize type + newlen + 1) = sdsHdrSize type + newlen + 1 :=
    sizeT_of_lt (by omega)
  rw [Sds.move, size]
  split_ifs with same
  · subst same
    cases granted : heap.realloc s.block (sdsHdrSize s.type + newlen + 1) with
    | none => exact Or.inl ⟨⟨_, by omega, Option.map_eq_none_iff.mp granted⟩, rfl⟩
    | some block => exact Or.inr ⟨_, rfl, valid.reallocated heap within fits short granted⟩
  · cases granted : heap.malloc (sdsHdrSize type + newlen + 1) with
    | none => exact Or.inl ⟨⟨_, by omega, granted⟩, rfl⟩
    | some block => exact Or.inr (valid.copied heap within fits short granted)

end Move

/-- There is space for the added bytes afterwards. -/
theorem Valid.sdsMakeRoomFor (valid : s.Valid) {addlen : Nat} (small : addlen ≤ addressSpace) :
    Refuses heap (s.sdslen + addlen) ∧ s.sdsMakeRoomFor heap addlen = .error .null ∨ ∃ larger,
      s.sdsMakeRoomFor heap addlen = .ok larger ∧ larger.Valid ∧ larger.text = s.text ∧
        larger.sdslen = s.sdslen ∧ s.sdslen + addlen ≤ larger.sdsalloc := by
  have space : addressSpace = 2 ^ 47 := rfl
  have length := valid.len_lt
  unfold Sds.sdsMakeRoomFor
  split_ifs with enough
  · have sum := valid.sdsavail
    exact Or.inr ⟨s, rfl, valid, rfl, rfl, by omega⟩
  · have sum : sizeT (s.sdslen + addlen) = s.sdslen + addlen := sizeT_of_lt (by omega)
    have extra : sizeT (s.sdslen + addlen + sdsMaxPrealloc) =
        s.sdslen + addlen + sdsMaxPrealloc := by
      refine sizeT_of_lt ?_
      unfold sdsMaxPrealloc
      omega
    dsimp only
    rw [sum, extra]
    generalize same : (if s.sdslen + addlen < sdsMaxPrealloc then (s.sdslen + addlen) * 2
      else s.sdslen + addlen + sdsMaxPrealloc) = newlen
    have bounds : s.sdslen + addlen ≤ newlen ∧ newlen < 2 ^ 63 ∧
        newlen ≤ 2 * (s.sdslen + addlen) + sdsMaxPrealloc := by
      unfold sdsMaxPrealloc at same ⊢
      split_ifs at same <;> omega
    have fits : newlen < 2 ^ (sdsAppendType newlen).bits := sdsAppendType_bits (by omega)
    have moved := valid.move heap (by omega) fits
      (fun five => absurd five (sdsAppendType_ne newlen)) bounds.2.1
    rcases moved with ⟨⟨size, bound, refused⟩, null⟩ | ⟨larger, granted, valid, text, len, alloc⟩
    · exact Or.inl ⟨⟨size, by omega, refused⟩, null⟩
    · exact Or.inr ⟨larger, granted, valid, text, len, alloc ▸ bounds.1⟩

section Operations

variable {t : Bytes} {len : Nat}

theorem readMemory_ok (readable : len ≤ t.length) : readMemory t len = .ok (t.take len) :=
  if_pos readable

theorem Valid.sdscatlen (valid : s.Valid) (readable : len ≤ t.length)
    (small : t.length ≤ addressSpace) :
    Gives (Refuses heap (s.text.length + len)) (s.sdscatlen heap t len) (s.text ++ t.take len) := by
  have space : addressSpace = 2 ^ 47 := rfl
  have length := valid.len_lt
  have bytes : (t.take len).length = len := List.length_take_of_le readable
  rw [valid.text_length]
  unfold Sds.sdscatlen
  rcases valid.sdsMakeRoomFor heap (readable.trans small) with
    ⟨refusal, null⟩ | ⟨larger, granted, after, text, same, room⟩
  · rw [null]
    exact Or.inl ⟨refusal, rfl⟩
  · have sum : sizeT (s.sdslen + len) = s.sdslen + (t.take len).length := by
      rw [bytes]
      exact sizeT_of_lt (by omega)
    have within : s.sdslen + (t.take len).length ≤ larger.sdsalloc := by rwa [bytes]
    obtain ⟨final, put, valid, content⟩ := after.toRoomy.put within
    simp only [granted, Except.bind, readMemory_ok readable, sum]
    refine Or.inr ⟨final, put, valid, ?_⟩
    rw [content, ← text, Sds.text, same]

theorem Valid.sdscat (valid : s.Valid) {text : Bytes} (terminated : cString t = some text)
    (small : t.length ≤ addressSpace) :
    Gives (Refuses heap (s.text.length + text.length)) (s.sdscat heap t) (s.text ++ text) := by
  obtain ⟨_, same⟩ := Option.ite_none_right_eq_some.mp terminated
  have shorter : text.length ≤ t.length := by
    rw [← Option.some.inj same]
    exact (List.takeWhile_prefix _).length_le
  have whole : t.take text.length = text := by
    rw [← Option.some.inj same]
    exact (List.prefix_iff_eq_take.mp (List.takeWhile_prefix _)).symm
  have given := valid.sdscatlen heap shorter small
  rw [whole] at given
  rw [Sds.sdscat, terminated]
  exact given

theorem Valid.sdscatsds (valid : s.Valid) {other : Sds} (also : other.Valid) :
    Gives (Refuses heap (s.text.length + other.text.length)) (s.sdscatsds heap other)
      (s.text ++ other.text) := by
  have within := also.within
  have room := also.room
  rw [also.text_length]
  exact valid.sdscatlen heap (by omega) also.small

theorem Valid.sdscpylen (valid : s.Valid) (readable : len ≤ t.length)
    (small : t.length ≤ addressSpace) :
    Gives (Refuses heap len) (s.sdscpylen heap t len) (t.take len) := by
  have bytes : (t.take len).length = len := List.length_take_of_le readable
  have within := valid.within
  have copies : ∀ {larger : Sds}, larger.Valid → len ≤ larger.sdsalloc →
      Gives (Refuses heap len) ((Except.ok larger).bind fun s =>
        (readMemory t len).bind fun bytes =>
          (s.memcpy 0 bytes).bind fun s => (s.terminate len).map fun s => s.sdssetlen len)
        (t.take len) := by
    intro larger after room
    obtain ⟨final, put, valid, content⟩ := after.toRoomy.overwrite (bytes.trans_le room)
    rw [bytes] at put
    simp only [Except.bind, readMemory_ok readable]
    exact Or.inr ⟨final, put, valid, content⟩
  unfold Sds.sdscpylen
  split_ifs with short
  · have added : len - s.sdslen ≤ addressSpace := by omega
    rcases valid.sdsMakeRoomFor heap added with
      ⟨refusal, null⟩ | ⟨larger, granted, after, _, _, room⟩
    · rw [null]
      exact Or.inl ⟨refusal.mono heap (by omega), rfl⟩
    · rw [granted]
      exact copies after (by omega)
  · exact copies valid (Nat.le_of_not_lt short)

theorem Valid.sdsRemoveFreeSpace (valid : s.Valid) :
    Gives (Refuses heap s.text.length) (s.sdsRemoveFreeSpace heap) s.text := by
  have space : addressSpace = 2 ^ 47 := rfl
  have length := valid.len_lt
  rw [valid.text_length]
  rcases valid.move heap (Nat.le_refl _) (sdsReqType_bits (by omega)) (fun _ => rfl)
    (by omega) with ⟨⟨size, bound, refused⟩, null⟩ | ⟨moved, granted, after, text, _, _⟩
  · exact Or.inl ⟨⟨size, by omega, refused⟩, null⟩
  · exact Or.inr ⟨moved, granted, after, text⟩

theorem Valid.sdsclear (valid : s.Valid) : Gives False s.sdsclear [] := by
  have nothing : 0 + ([] : Bytes).length ≤ s.sdsalloc := Nat.zero_le _
  obtain ⟨final, put, after, content⟩ := valid.toRoomy.put nothing
  refine Or.inr ⟨final, ?_, after, content⟩
  have copied : s.memcpy 0 [] = .ok s := by
    rw [memcpy_of_write (write_of_room (Nat.zero_le _))]
    simp
  rw [copied] at put
  exact put

/-- The zeros and the terminator are written at once. -/
theorem Valid.zeroed (valid : s.Valid) (within : len ≤ s.sdsalloc) (longer : s.sdslen ≤ len) :
    ∃ after, ((s.memcpy s.sdslen (List.replicate (len - s.sdslen + 1) 0)).map fun s =>
        s.sdssetlen len) = .ok after ∧
      after.Valid ∧ after.text = s.text ++ List.replicate (len - s.sdslen) 0 := by
  have inside := valid.room
  have zeros : (List.replicate (len - s.sdslen + 1) (0 : UInt8)).length = len - s.sdslen + 1 :=
    List.length_replicate
  have setting : s.sdslen + (List.replicate (len - s.sdslen + 1) (0 : UInt8)).length ≤
      s.buf.length := by omega
  obtain ⟨buf, written⟩ : ∃ buf, write s.buf s.sdslen
    (List.replicate (len - s.sdslen + 1) 0) = some buf := ⟨_, write_of_room setting⟩
  have front := write_take written
  have last : s.sdslen + (len - s.sdslen + 1) = len + 1 := by omega
  rw [zeros, last, List.replicate_succ', ← List.append_assoc] at front
  change buf.take (len + 1) = s.text ++ List.replicate (len - s.sdslen) 0 ++ [0] at front
  have bytes : (s.text ++ List.replicate (len - s.sdslen) 0).length = len := by
    rw [List.length_append, valid.text_length, List.length_replicate]
    omega
  have nul : buf[len]? = some 0 := by
    have found := congrArg (fun bytes => bytes[len]?) front
    simp only [List.getElem?_take, Nat.lt_succ_self, if_true] at found
    rw [found, List.getElem?_append_right (Nat.le_of_eq bytes), bytes, Nat.sub_self]
    rfl
  have content : buf.take len = s.text ++ List.replicate (len - s.sdslen) 0 := by
    have shorter := congrArg (List.take len) front
    rwa [List.take_take, Nat.min_eq_left (Nat.le_succ _), List.take_left' bytes] at shorter
  obtain ⟨final, ended⟩ := valid.toRoomy.sdssetlen within (write_length written) nul
  rw [memcpy_of_write written]
  exact ⟨_, rfl, final, ended.trans content⟩

theorem Valid.sdsgrowzero (valid : s.Valid) (small : len ≤ addressSpace) :
    Gives (Refuses heap len) (s.sdsgrowzero heap len)
      (s.text ++ List.replicate (len - s.text.length) 0) := by
  rw [valid.text_length]
  unfold Sds.sdsgrowzero
  dsimp only
  split_ifs with enough
  · rw [Nat.sub_eq_zero_of_le enough, List.replicate_zero, List.append_nil]
    exact Or.inr ⟨s, rfl, valid, rfl⟩
  · have added : len - s.sdslen ≤ addressSpace := by omega
    rcases valid.sdsMakeRoomFor heap added with
      ⟨refusal, null⟩ | ⟨larger, granted, after, text, same, room⟩
    · rw [null]
      exact Or.inl ⟨refusal.mono heap (by omega), rfl⟩
    · have within : len ≤ larger.sdsalloc := by omega
      have longer : larger.sdslen ≤ len := by omega
      obtain ⟨final, zeroed, valid, content⟩ := after.zeroed within longer
      rw [same] at zeroed content
      rw [granted, ← text]
      exact Or.inr ⟨final, zeroed, valid, content⟩

theorem Valid.sdstrim (valid : s.Valid) (cset : Bytes) :
    Gives False (s.sdstrim cset)
      ((s.text.dropWhile (trims cset)).rdropWhile (trims cset)) := by
  have within := valid.within
  have room := valid.room
  have read : readMemory s.buf s.sdslen = .ok s.text := readMemory_ok (by omega)
  have shorter : ((s.text.dropWhile (trims cset)).rdropWhile (trims cset)).length ≤
      s.sdsalloc := by
    have front := (List.rdropWhile_prefix (trims cset) (s.text.dropWhile (trims cset))).length_le
    have back := (List.dropWhile_suffix (trims cset) (l := s.text)).length_le
    rw [valid.text_length] at back
    omega
  obtain ⟨final, put, after, content⟩ := valid.toRoomy.overwrite shorter
  rw [Sds.sdstrim, read]
  exact Or.inr ⟨final, put, after, content⟩

/-- A new string holds the bytes that it is made from. -/
theorem gives_sdsnewlen (readable : len ≤ t.length) (small : t.length ≤ addressSpace) :
    Gives (Refuses heap len) (sdsnewlen heap (some t) len) (t.take len) := by
  have space : addressSpace = 2 ^ 47 := rfl
  have bytes : (t.take len).length = len := List.length_take_of_le readable
  unfold sdsnewlen
  generalize chosen : (if len = 0 then SdsType.type8 else sdsReqType len) = type
  have header : sdsHdrSize type ≤ 17 := by cases type <;> decide
  have size : sizeT (sdsHdrSize type + len + 1) = sdsHdrSize type + len + 1 :=
    sizeT_of_lt (by omega)
  have fits : len < 2 ^ type.bits := by
    rw [← chosen]
    split_ifs with empty
    · rw [empty]
      decide
    · exact sdsReqType_bits (by omega)
  dsimp only
  rw [size]
  cases granted : heap.malloc (sdsHdrSize type + len + 1) with
  | none => exact Or.inl ⟨⟨_, by omega, granted⟩, rfl⟩
  | some block =>
      have limit := heap.limited _ block granted
      have length := heap.sized _ block granted
      have whole : (block.drop (sdsHdrSize type)).length = len + 1 := by
        rw [List.length_drop, length]
        omega
      let fresh : Sds := ⟨type, len % 2 ^ type.bits, len % 2 ^ type.bits,
        block.drop (sdsHdrSize type)⟩
      have alloc : fresh.sdsalloc = len := by
        change (if type = .type5 then len % 2 ^ type.bits else len % 2 ^ type.bits) = len
        rw [ite_self, Nat.mod_eq_of_lt fits]
      have roomy : fresh.Roomy := by
        refine ⟨alloc.trans_lt fits, ?_, whole.trans_le ?_⟩
        · rw [alloc]
          exact (Nat.lt_succ_self len).trans_eq whole.symm
        · omega
      have inside : 0 + (t.take len).length ≤ fresh.sdsalloc := by omega
      obtain ⟨buf, final, written, ended, same, front, nul⟩ := roomy.writes inside
      rw [Nat.zero_add, bytes] at ended front nul
      obtain ⟨valid, text⟩ := roomy.sdssetlen (Nat.le_of_eq alloc.symm) same nul
      have ending : write ({ fresh with buf } : Sds).buf len [0] = some final := ended
      simp only [readMemory_ok readable, Except.bind]
      change Gives _ ((fresh.memcpy 0 (t.take len)).bind fun s => s.terminate len) (t.take len)
      rw [memcpy_of_write written, Except.bind, terminate, memcpy_of_write ending]
      exact Or.inr ⟨_, rfl, valid, text.trans front⟩

theorem gives_sdsempty : Gives (Refuses heap 0) (sdsempty heap) [] :=
  gives_sdsnewlen heap (Nat.zero_le _) (by decide)

theorem Valid.sdsdup (valid : s.Valid) :
    Gives (Refuses heap s.text.length) (s.sdsdup heap) s.text := by
  have within := valid.within
  have room := valid.room
  rw [valid.text_length]
  exact gives_sdsnewlen heap (by omega) valid.small

/-- The buffer holds what is printed up to its first zero. -/
theorem printBuffer_cases (granted : Nat → Bool) (text : Bytes) (buflen : Nat)
    (large : 1 < buflen) :
    (∃ size, granted size = false) ∧ printBuffer granted text buflen large = .error .null ∨
      ∃ buf, printBuffer granted text buflen large = .ok buf ∧
        cString buf = some (text.takeWhile (· ≠ 0)) ∧ buf.length ≤ text.length + 1 := by
  fun_induction printBuffer granted text buflen large with
  | case1 buflen large full given ih => exact ih
  | case2 buflen large full refused =>
      exact Or.inl ⟨⟨_, Bool.eq_false_iff.mpr refused⟩, rfl⟩
  | case3 buflen large fits =>
      refine Or.inr ⟨_, rfl, ?_, ?_⟩
      · by_cases short : text.length ≤ buflen - 2
        · rw [List.take_of_length_le (by omega), cString_zero]
        · -- the zero at `buf[buflen - 2]` is a printed one
          have printed : text[buflen - 2]? = some 0 := by
            by_contra other
            exact fits ⟨Nat.lt_of_not_le short, other⟩
          obtain ⟨within, zero⟩ := List.getElem?_eq_some_iff.mp printed
          have whole := cString_zero (text.take (buflen - 2)) (text.drop (buflen - 2 + 1))
          rw [← zero, ← List.drop_eq_getElem_cons within, List.take_append_drop, zero] at whole
          have taken : text.take (buflen - 1) = text.take (buflen - 2) ++ [0] := by
            have last : buflen - 1 = buflen - 2 + 1 := by omega
            rw [last, List.take_add_one, printed]
            rfl
          rw [taken, List.append_assoc, List.singleton_append, cString_zero]
          exact whole.symm.trans (if_pos (List.mem_of_getElem? printed))
      · rw [List.length_append, List.length_take, List.length_singleton]
        omega

/-- The text of a `vsnprintf` comes whole if no zero is in it. -/
theorem Valid.sdscatvprintf (valid : s.Valid) (granted : Nat → Bool) (fmtlen : Nat)
    {text : Bytes} (small : text.length < addressSpace) :
    Gives (Refuses heap (s.text.length + text.length) ∨ ∃ size, granted size = false)
      (s.sdscatvprintf heap granted fmtlen text) (s.text ++ text.takeWhile (· ≠ 0)) := by
  have printed : ∀ buflen (large : 1 < buflen),
      Gives (Refuses heap (s.text.length + text.length) ∨ ∃ size, granted size = false)
        ((printBuffer granted text buflen large).bind fun buf => s.sdscat heap buf)
        (s.text ++ text.takeWhile (· ≠ 0)) := by
    intro buflen large
    rcases printBuffer_cases granted text buflen large with
      ⟨refusal, null⟩ | ⟨buf, given, ended, length⟩
    · rw [null]
      exact Or.inl ⟨Or.inr refusal, rfl⟩
    · have shorter := (List.takeWhile_prefix (l := text) (· ≠ 0)).length_le
      rw [given]
      rcases valid.sdscat heap ended (by omega) with ⟨refusal, null⟩ | added
      · exact Or.inl ⟨Or.inl (refusal.mono heap (by omega)), null⟩
      · exact Or.inr added
  unfold Sds.sdscatvprintf
  dsimp only
  split_ifs with long given
  · exact printed _ _
  · exact Or.inl ⟨Or.inr ⟨_, Bool.eq_false_iff.mpr given⟩, rfl⟩
  · exact printed _ _

end Operations

end Sds

/-- The operations on a string, each with what the allocator does in it. -/
inductive SdsOp
  | sdsMakeRoomFor (heap : Heap) (addlen : Nat)
  | sdsRemoveFreeSpace (heap : Heap)
  | sdsclear
  | sdsgrowzero (heap : Heap) (len : Nat)
  | sdscatlen (heap : Heap) (t : Bytes) (len : Nat)
  | sdscat (heap : Heap) (t : Bytes)
  | sdscatsds (heap : Heap) (t : Sds)
  | sdscatvprintf (heap : Heap) (granted : Nat → Bool) (fmtlen : Nat) (text : Bytes)
  | sdscpylen (heap : Heap) (t : Bytes) (len : Nat)
  | sdsdup (heap : Heap)
  | sdstrim (cset : Bytes)

namespace SdsOp

def apply (s : Sds) : SdsOp → Except SdsFailure Sds
  | sdsMakeRoomFor heap addlen => s.sdsMakeRoomFor heap addlen
  | sdsRemoveFreeSpace heap => s.sdsRemoveFreeSpace heap
  | sdsclear => s.sdsclear
  | sdsgrowzero heap len => s.sdsgrowzero heap len
  | sdscatlen heap t len => s.sdscatlen heap t len
  | sdscat heap t => s.sdscat heap t
  | sdscatsds heap t => s.sdscatsds heap t
  | sdscatvprintf heap granted fmtlen text => s.sdscatvprintf heap granted fmtlen text
  | sdscpylen heap t len => s.sdscpylen heap t len
  | sdsdup heap => s.sdsdup heap
  | sdstrim cset => s.sdstrim cset

/-- What the operation is for. -/
def effect (text : Bytes) : SdsOp → Bytes
  | sdsMakeRoomFor _ _ => text
  | sdsRemoveFreeSpace _ => text
  | sdsclear => []
  | sdsgrowzero _ len => text ++ List.replicate (len - text.length) 0
  | sdscatlen _ t len => text ++ t.take len
  | sdscat _ t => text ++ t.takeWhile (· ≠ 0)
  | sdscatsds _ t => text ++ t.text
  | sdscatvprintf _ _ _ printed => text ++ printed.takeWhile (· ≠ 0)
  | sdscpylen _ t len => t.take len
  | sdsdup _ => text
  | sdstrim cset => (text.dropWhile (Sds.trims cset)).rdropWhile (Sds.trims cset)

/-- The arguments point to memory of the process that holds what the operation reads. -/
def Legal : SdsOp → Prop
  | sdsMakeRoomFor _ addlen => addlen ≤ addressSpace
  | sdsgrowzero _ len => len ≤ addressSpace
  | sdscatlen _ t len => len ≤ t.length ∧ t.length ≤ addressSpace
  | sdscat _ t => 0 ∈ t ∧ t.length ≤ addressSpace
  | sdscatsds _ t => t.Valid
  | sdscatvprintf _ _ _ text => text.length < addressSpace
  | sdscpylen _ t len => len ≤ t.length ∧ t.length ≤ addressSpace
  | _ => True

/-- The allocator refuses a block that the operation may need for its result. -/
def Refused (text : Bytes) : SdsOp → Prop
  | sdsMakeRoomFor heap addlen => Sds.Refuses heap (text.length + addlen)
  | sdsRemoveFreeSpace heap => Sds.Refuses heap text.length
  | sdsclear => False
  | sdsgrowzero heap len => Sds.Refuses heap len
  | sdscatlen heap _ len => Sds.Refuses heap (text.length + len)
  | sdscat heap t => Sds.Refuses heap (text.length + t.length)
  | sdscatsds heap t => Sds.Refuses heap (text.length + t.text.length)
  | sdscatvprintf heap granted _ printed =>
      Sds.Refuses heap (text.length + printed.length) ∨ ∃ size, granted size = false
  | sdscpylen heap _ len => Sds.Refuses heap len
  | sdsdup heap => Sds.Refuses heap text.length
  | sdstrim _ => False

/-- Every operation is refused its memory, or has its effect on a valid string. -/
theorem Legal.gives {op : SdsOp} (legal : op.Legal) {s : Sds} (valid : s.Valid) :
    Sds.Gives (op.Refused s.text) (op.apply s) (op.effect s.text) := by
  cases op with
  | sdsMakeRoomFor heap addlen =>
      rcases valid.sdsMakeRoomFor heap legal with refused | ⟨larger, granted, after, text, _, _⟩
      · left
        rw [Refused, valid.text_length]
        exact refused
      · exact Or.inr ⟨larger, granted, after, text⟩
  | sdsRemoveFreeSpace heap => exact valid.sdsRemoveFreeSpace heap
  | sdsclear => exact valid.sdsclear
  | sdsgrowzero heap len => exact valid.sdsgrowzero heap legal
  | sdscatlen heap t len => exact valid.sdscatlen heap legal.1 legal.2
  | sdscat heap t =>
      have shorter := (List.takeWhile_prefix (l := t) (· ≠ 0)).length_le
      rcases valid.sdscat heap (if_pos legal.1) legal.2 with ⟨refusal, null⟩ | added
      · exact Or.inl ⟨refusal.mono heap (by omega), null⟩
      · exact Or.inr added
  | sdscatsds heap t => exact valid.sdscatsds heap legal
  | sdscatvprintf heap granted fmtlen text => exact valid.sdscatvprintf heap granted fmtlen legal
  | sdscpylen heap t len => exact valid.sdscpylen heap legal.1 legal.2
  | sdsdup heap => exact valid.sdsdup heap
  | sdstrim cset => exact valid.sdstrim cset

end SdsOp

/-- A string, the operations that had their effect, and those that returned null for a text. -/
structure SdsRun where
  string : Sds
  done : List SdsOp
  null : List (SdsOp × Bytes)

/-- A caller that gets a null pointer still has its string. -/
def SdsRun.step (run : SdsRun) (op : SdsOp) : Option SdsRun :=
  match op.apply run.string with
  | .ok string => some { run with string, done := run.done ++ [op] }
  | .error .null => some { run with null := run.null ++ [(op, run.string.text)] }
  | .error .undefined => none

/-- A new string with every order of operations and every answer of the allocator. -/
def sdsMachine (string : Sds) : Machine SdsRun SdsOp := ⟨⟨string, [], []⟩, SdsRun.step⟩

/-- The string is valid and has the effects of the operations that were not refused. -/
structure SdsRun.Holds (text : Bytes) (run : SdsRun) : Prop where
  valid : run.string.Valid
  content : run.string.text = run.done.foldl SdsOp.effect text
  refused : ∀ entry ∈ run.null, entry.1.Refused entry.2

theorem SdsRun.Holds.step {text : Bytes} {run : SdsRun} (holds : run.Holds text) {op : SdsOp}
    (legal : op.Legal) : ∃ next, run.step op = some next ∧ next.Holds text := by
  rcases legal.gives holds.valid with ⟨refusal, null⟩ | ⟨string, applied, after, effect⟩
  · refine ⟨{ run with null := run.null ++ [(op, run.string.text)] }, by rw [SdsRun.step, null],
      holds.valid, holds.content, fun entry member => ?_⟩
    rcases List.mem_append.mp member with old | new
    · exact holds.refused entry old
    · rw [List.mem_singleton.mp new]
      exact refusal
  · refine ⟨{ run with string, done := run.done ++ [op] }, by rw [SdsRun.step, applied], after, ?_,
      holds.refused⟩
    rw [effect, holds.content, List.foldl_concat]

theorem SdsRun.Holds.run {text : Bytes} {ops : List SdsOp} (legal : ∀ op ∈ ops, op.Legal)
    (first : Sds) {run : SdsRun} (holds : run.Holds text) :
    ∃ last, (sdsMachine first).run run ops = some last ∧ last.Holds text := by
  induction ops generalizing run with
  | nil => exact ⟨run, rfl, holds⟩
  | cons op rest ih =>
      obtain ⟨next, stepped, after⟩ := holds.step (legal op List.mem_cons_self)
      obtain ⟨last, reached, finished⟩ :=
        ih (fun op member => legal op (List.mem_cons_of_mem _ member)) after
      exact ⟨last, (Machine.run_cons _).mpr ⟨next, stepped, reached⟩, finished⟩

/-- No string leaves its block, and its bytes are those of the operations. -/
theorem sds_refines (heap : Heap) {t : Bytes} {len : Nat} (readable : len ≤ t.length)
    (small : t.length ≤ addressSpace) {ops : List SdsOp} (legal : ∀ op ∈ ops, op.Legal) :
    Sds.Refuses heap len ∧ Sds.sdsnewlen heap (some t) len = .error .null ∨ ∃ first last,
      Sds.sdsnewlen heap (some t) len = .ok first ∧
        (sdsMachine first).run (sdsMachine first).start ops = some last ∧ last.string.Valid ∧
        last.string.text = last.done.foldl SdsOp.effect (t.take len) ∧
        ∀ entry ∈ last.null, entry.1.Refused entry.2 := by
  rcases Sds.gives_sdsnewlen heap readable small with refused | ⟨first, made, valid, text⟩
  · exact Or.inl refused
  · right
    have start : (⟨first, [], []⟩ : SdsRun).Holds (t.take len) :=
      ⟨valid, text, fun entry member => by cases member⟩
    obtain ⟨last, reached, holds⟩ := start.run legal first
    exact ⟨first, last, made, reached, holds.valid, holds.content, holds.refused⟩

/-- An allocator that has all the memory that it is asked for. -/
def generousHeap : Heap := Allocator.generous 0

def shoutOps : List SdsOp :=
  [.sdscatlen generousHeap [104, 105] 2, .sdsRemoveFreeSpace generousHeap,
    .sdscat generousHeap [33, 0]]

theorem sds_refines_shout :
    Sds.Refuses generousHeap 0 ∧ Sds.sdsnewlen generousHeap (some [0]) 0 = .error .null ∨
      ∃ first last, Sds.sdsnewlen generousHeap (some [0]) 0 = .ok first ∧
        (sdsMachine first).run (sdsMachine first).start shoutOps = some last ∧
        last.string.Valid ∧ last.string.text = last.done.foldl SdsOp.effect ([0].take 0) ∧
        ∀ entry ∈ last.null, entry.1.Refused entry.2 :=
  sds_refines generousHeap (Nat.zero_le _) (by decide)
    (List.forall_mem_cons.mpr ⟨⟨by decide, by decide⟩, List.forall_mem_cons.mpr ⟨trivial,
      List.forall_mem_singleton.mpr ⟨by decide, by decide⟩⟩⟩)

end QServer
