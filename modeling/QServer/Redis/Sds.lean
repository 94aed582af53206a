import Mathlib.Data.List.DropRight
import QServer.Lib.Block
import QServer.Redis.FormatCommand

/-
This file models the strings of `commlib/redis/sds.h` and `sds.cpp` in their blocks of memory.
-/

namespace QServer
open Wire Memory

/-- The kinds of headers. -/
inductive SdsType
  | type5
  | type8
  | type16
  | type32
  | type64
  deriving DecidableEq

/-- The bits of a length in the header. -/
def SdsType.bits : SdsType → Nat
  | .type5 => 5
  | .type8 => 8
  | .type16 => 16
  | .type32 => 32
  | .type64 => 64

def sdsHdrSize : SdsType → Nat
  | .type5 => 1
  | .type8 => 3
  | .type16 => 5
  | .type32 => 9
  | .type64 => 17

def sdsReqType (stringSize : Nat) : SdsType :=
  if stringSize < 32 then .type5
  else if stringSize < 0xff then .type8
  else if stringSize < 0xffff then .type16
  else if stringSize < 0xffffffff then .type32
  else .type64

/-- Type 5 cannot remember empty space. -/
def sdsAppendType (size : Nat) : SdsType :=
  if sdsReqType size = .type5 then .type8 else sdsReqType size

def sdsMaxPrealloc : Nat := 1024 * 1024

/-- The value of an expression of type `size_t`. -/
def sizeT (value : Nat) : Nat := value % 2 ^ 64

/-- The addresses of a process end here. -/
def addressSpace : Nat := 2 ^ 47

abbrev Heap := Allocator UInt8 addressSpace

/-- A header, and the memory from the pointer to the end of its block. -/
structure Sds where
  type : SdsType
  len : Nat
  -- A header of type 5 has no `alloc`.
  alloc : Nat
  buf : Bytes

/-- A null result, and the runs for which C defines no behavior. -/
inductive SdsFailure
  | null
  | undefined

/-- The bytes that a function reads at a pointer. -/
def readMemory (memory : Bytes) (len : Nat) : Except SdsFailure Bytes :=
  if len ≤ memory.length then .ok (memory.take len) else .error .undefined

namespace Sds

variable (s : Sds)

def sdslen : Nat := s.len

def sdsalloc : Nat := if s.type = .type5 then s.len else s.alloc

/-- The difference is an `unsigned int` for type 32. -/
def sdsavail : Nat :=
  if s.type = .type5 then 0
  else
    let width := if s.type = .type32 then 32 else 64
    (((s.alloc : Int) - s.len) % 2 ^ width).toNat

def sdssetlen (newlen : Nat) : Sds := { s with len := newlen % 2 ^ s.type.bits }

def sdssetalloc (newlen : Nat) : Sds :=
  if s.type = .type5 then s else { s with alloc := newlen % 2 ^ s.type.bits }

/-- The function writes at an offset from the pointer. -/
def memcpy (place : Nat) (bytes : Bytes) : Except SdsFailure Sds :=
  match write s.buf place bytes with
  | none => .error .undefined
  | some buf => .ok { s with buf }

/-- `s[len] = '\0'`. -/
def terminate (len : Nat) : Except SdsFailure Sds := s.memcpy len [0]

/-- The block with its header, of which only the size matters here. -/
def block : Bytes := List.replicate (sdsHdrSize s.type) 0 ++ s.buf

variable (heap : Heap)

/-- Without an `init` the block is set to zeros. -/
def sdsnewlen (init : Option Bytes) (initlen : Nat) : Except SdsFailure Sds :=
  let type := if initlen = 0 then .type8 else sdsReqType initlen
  match heap.malloc (sizeT (sdsHdrSize type + initlen + 1)) with
  | none => .error .null
  | some block =>
      let memory := block.drop (sdsHdrSize type)
      match init with
      | none =>
          let s : Sds := ⟨type, initlen % 2 ^ type.bits, initlen % 2 ^ type.bits,
            memory.map fun _ => 0⟩
          s.terminate initlen
      | some init =>
          let s : Sds := ⟨type, initlen % 2 ^ type.bits, initlen % 2 ^ type.bits, memory⟩
          (readMemory init initlen).bind fun bytes =>
            (s.memcpy 0 bytes).bind fun s => s.terminate initlen

def sdsempty : Except SdsFailure Sds := sdsnewlen heap (some [0]) 0

/-- The string moves to a block for the new length. A header of the same kind stays. -/
def move (type : SdsType) (newlen : Nat) : Except SdsFailure Sds :=
  let size := sizeT (sdsHdrSize type + newlen + 1)
  if s.type = type then
    match heap.realloc s.block size with
    | none => .error .null
    | some block => .ok (sdssetalloc { s with buf := block.drop (sdsHdrSize type) } newlen)
  else
    match heap.malloc size with
    | none => .error .null
    | some block =>
        (readMemory s.buf (s.sdslen + 1)).bind fun bytes =>
          (memcpy ⟨type, s.len, s.alloc, block.drop (sdsHdrSize type)⟩ 0 bytes).map fun moved =>
            (moved.sdssetlen s.sdslen).sdssetalloc newlen

def sdsMakeRoomFor (addlen : Nat) : Except SdsFailure Sds :=
  if addlen ≤ s.sdsavail then .ok s
  else
    let sum := sizeT (s.sdslen + addlen)
    let newlen := if sum < sdsMaxPrealloc then sum * 2 else sizeT (sum + sdsMaxPrealloc)
    s.move heap (sdsAppendType newlen) newlen

def sdsRemoveFreeSpace : Except SdsFailure Sds := s.move heap (sdsReqType s.sdslen) s.sdslen

def sdsclear : Except SdsFailure Sds := (s.sdssetlen 0).terminate 0

/-- `memset` writes the terminator as well. -/
def sdsgrowzero (len : Nat) : Except SdsFailure Sds :=
  let curlen := s.sdslen
  if len ≤ curlen then .ok s
  else
    (s.sdsMakeRoomFor heap (len - curlen)).bind fun s =>
      (s.memcpy curlen (List.replicate (len - curlen + 1) 0)).map fun s => s.sdssetlen len

def sdscatlen (t : Bytes) (len : Nat) : Except SdsFailure Sds :=
  let curlen := s.sdslen
  (s.sdsMakeRoomFor heap len).bind fun s =>
    (readMemory t len).bind fun bytes =>
      (s.memcpy curlen bytes).bind fun s =>
        (s.sdssetlen (sizeT (curlen + len))).terminate (sizeT (curlen + len))

def sdscat (t : Bytes) : Except SdsFailure Sds :=
  match cString t with
  | none => .error .undefined
  | some text => s.sdscatlen heap t text.length

def sdscatsds (t : Sds) : Except SdsFailure Sds := s.sdscatlen heap t.buf t.sdslen

def sdscpylen (t : Bytes) (len : Nat) : Except SdsFailure Sds :=
  (if s.sdsalloc < len then s.sdsMakeRoomFor heap (len - s.sdslen) else .ok s).bind fun s =>
    (readMemory t len).bind fun bytes =>
      (s.memcpy 0 bytes).bind fun s => (s.terminate len).map fun s => s.sdssetlen len

def sdsdup : Except SdsFailure Sds := sdsnewlen heap (some s.buf) s.sdslen

/-- `strchr` finds the terminator of the set, so zeros are trimmed as well. -/
def trims (cset : Bytes) (byte : UInt8) : Bool := cset.contains byte || byte = 0

/-- The bytes between the first and the last one that stay. -/
def sdstrim (cset : Bytes) : Except SdsFailure Sds :=
  (readMemory s.buf s.sdslen).bind fun text =>
    let kept := (text.dropWhile (trims cset)).rdropWhile (trims cset)
    (s.memcpy 0 kept).bind fun s => (s.terminate kept.length).map fun s => s.sdssetlen kept.length

/-- The loop doubles its buffer until `vsnprintf` leaves the zero at `buf[buflen - 2]`. -/
def printBuffer (granted : Nat → Bool) (text : Bytes) (buflen : Nat) (large : 1 < buflen) :
    Except SdsFailure Bytes :=
  if _full : buflen - 2 < text.length ∧ text[buflen - 2]? ≠ some 0 then
    if granted (buflen * 2) then printBuffer granted text (buflen * 2) (by omega)
    else .error .null
  else .ok (text.take (buflen - 1) ++ [0])
termination_by text.length + 2 - buflen
decreasing_by omega

/-- A buffer on the stack has 1024 bytes. -/
def sdscatvprintf (granted : Nat → Bool) (fmtlen : Nat) (text : Bytes) : Except SdsFailure Sds :=
  let printed :=
    if long : fmtlen * 2 > 1024 then
      if granted (fmtlen * 2) then printBuffer granted text (fmtlen * 2) (by omega)
      else .error .null
    else printBuffer granted text 1024 (by omega)
  printed.bind fun buf => s.sdscat heap buf

end Sds

end QServer
