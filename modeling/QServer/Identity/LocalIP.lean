import QServer.Lib.ProtoCodec
import QServer.Lib.Separated
import Mathlib.Data.UInt

/-
This file models the addresses of the machine, as `app/common/get_ip.h` lists them.
-/

namespace QServer
open Wire Separated

/-- The bytes of a `sin_addr` in network order. -/
structure InAddr where
  first : UInt8
  second : UInt8
  third : UInt8
  fourth : UInt8
  deriving DecidableEq

/-- The character '.'. -/
def dot : UInt8 := 46

/-- The character '0'. -/
def zeroDigit : UInt8 := 48

/-- The conversion "%d" of a byte. -/
def decimal (value : UInt8) : Bytes :=
  if value < 10 then [zeroDigit + value]
  else if value < 100 then [zeroDigit + value / 10, zeroDigit + value % 10]
  else [zeroDigit + value / 100, zeroDigit + value / 10 % 10, zeroDigit + value % 10]

def inetNtoa (addr : InAddr) : Bytes :=
  decimal addr.first ++ dot :: (decimal addr.second ++ dot ::
    (decimal addr.third ++ dot :: decimal addr.fourth))

/-- The address "127.0.0.1". -/
def loopback : InAddr := ⟨127, 0, 0, 1⟩

/-- The loop counts down, and its cursor moves in the branch of the loopback address only. -/
def listIPs (ifreqs : List InAddr) : Nat → Nat → List Bytes → Option (List Bytes)
  | 0, _, ret => some ret
  | i + 1, cursor, ret =>
      match ifreqs[cursor]? with
      -- A read behind the last record.
      | none => none
      | some addr =>
          let ip := inetNtoa addr
          if ip = inetNtoa loopback then listIPs ifreqs i (cursor + 1) ret
          else listIPs ifreqs i cursor (ret ++ [ip])

/-- The records are those that `SIOCGIFCONF` put into the buffer. -/
def getLocalIP (sockfd : Int) (ifreqs : List InAddr) : Option (List Bytes) :=
  if sockfd < 0 then some [] else listIPs ifreqs ifreqs.length 0 []

section InetNtoa

/-- The number that the digits stand for. -/
def readDecimal (text : Bytes) : UInt8 :=
  text.foldl (fun value digit => 10 * value + (digit - zeroDigit)) 0

/-- What holds of all bytes can be tried out. -/
theorem forall_byte {property : UInt8 → Bool}
    (all : ∀ value < 256, property (UInt8.ofNat value) = true) (byte : UInt8) :
    property byte = true := by
  have tried := all byte.toNat (UInt8.toNat_lt byte)
  rwa [UInt8.ofNat_toNat] at tried

theorem readDecimal_decimal (value : UInt8) : readDecimal (decimal value) = value := by
  have tried : ∀ value < 256,
      (readDecimal (decimal (UInt8.ofNat value)) == UInt8.ofNat value) = true := by decide +kernel
  have read := @forall_byte (fun value => readDecimal (decimal value) == value) tried value
  exact beq_iff_eq.mp read

theorem decimal_inj {value other : UInt8} (same : decimal value = decimal other) :
    value = other := by
  rw [← readDecimal_decimal value, same, readDecimal_decimal]

theorem mem_decimal {value char : UInt8} (member : char ∈ decimal value) :
    zeroDigit ≤ char ∧ char ≤ zeroDigit + 9 := by
  let digital : UInt8 → Bool := fun value =>
    (decimal value).all fun char => zeroDigit ≤ char && char ≤ zeroDigit + 9
  have digits := @forall_byte digital (by decide +kernel) value
  have digit := List.all_eq_true.mp digits char member
  rwa [Bool.and_eq_true, decide_eq_true_eq, decide_eq_true_eq] at digit

theorem dot_not_decimal (value : UInt8) : dot ∉ decimal value := by
  intro member
  exact absurd (mem_decimal member).1 (by decide)

/-- Two addresses differ in their texts. -/
theorem inetNtoa_inj {addr other : InAddr} (same : inetNtoa addr = inetNtoa other) :
    addr = other := by
  obtain ⟨first, same⟩ := field_inj (dot_not_decimal _) (dot_not_decimal _) same
  obtain ⟨second, same⟩ := field_inj (dot_not_decimal _) (dot_not_decimal _) same
  obtain ⟨third, fourth⟩ := field_inj (dot_not_decimal _) (dot_not_decimal _) same
  cases addr
  cases other
  rw [InAddr.mk.injEq]
  exact ⟨decimal_inj first, decimal_inj second, decimal_inj third, decimal_inj fourth⟩

/-- An address has digits and dots only. -/
theorem mem_inetNtoa {addr : InAddr} {char : UInt8} (member : char ∈ inetNtoa addr) :
    char = dot ∨ zeroDigit ≤ char ∧ char ≤ zeroDigit + 9 := by
  simp only [inetNtoa, List.mem_append, List.mem_cons] at member
  rcases member with digit | same | digit | same | digit | same | digit
  · exact Or.inr (mem_decimal digit)
  · exact Or.inl same
  · exact Or.inr (mem_decimal digit)
  · exact Or.inl same
  · exact Or.inr (mem_decimal digit)
  · exact Or.inl same
  · exact Or.inr (mem_decimal digit)

end InetNtoa

/-- What the loop collects from the records that the cursor has not passed. -/
def spin : List InAddr → List Bytes
  | [] => []
  | addr :: rest =>
      if addr = loopback then spin rest else List.replicate (rest.length + 1) (inetNtoa addr)

/-- The cursor stays at an address that is not the loopback one. -/
theorem listIPs_stuck {ifreqs : List InAddr} {cursor : Nat} {addr : InAddr}
    (reads : ifreqs[cursor]? = some addr) (outside : addr ≠ loopback) (count : Nat)
    (ret : List Bytes) :
    listIPs ifreqs count cursor ret = some (ret ++ List.replicate count (inetNtoa addr)) := by
  induction count generalizing ret with
  | zero => rw [listIPs, List.replicate_zero, List.append_nil]
  | succ count ih =>
      have other : inetNtoa addr ≠ inetNtoa loopback := fun same => outside (inetNtoa_inj same)
      rw [listIPs, reads]
      dsimp only
      rw [if_neg other, ih, List.append_assoc, List.replicate_succ, List.singleton_append]

/-- The counter and the cursor move in step up to the first address that is not loopback. -/
theorem listIPs_eq_spin {ifreqs passed rest : List InAddr} (whole : ifreqs = passed ++ rest)
    (ret : List Bytes) :
    listIPs ifreqs rest.length passed.length ret = some (ret ++ spin rest) := by
  induction rest generalizing passed with
  | nil => rw [List.length_nil, listIPs, spin, List.append_nil]
  | cons addr rest ih =>
      have reads : ifreqs[passed.length]? = some addr := by
        rw [whole, List.getElem?_append_right (le_refl _), Nat.sub_self, List.getElem?_cons_zero]
      by_cases inside : addr = loopback
      · have further : ifreqs = (passed ++ [addr]) ++ rest := by
          rw [whole, List.append_assoc]
          rfl
        have moved := ih further
        rw [List.length_append, List.length_singleton] at moved
        rw [List.length_cons, listIPs, reads]
        dsimp only
        rw [if_pos (congrArg inetNtoa inside), moved, spin, if_pos inside]
      · rw [listIPs_stuck reads inside, spin, if_neg inside, List.length_cons]

theorem getLocalIP_eq {sockfd : Int} (opened : 0 ≤ sockfd) (ifreqs : List InAddr) :
    getLocalIP sockfd ifreqs = some (spin ifreqs) := by
  rw [getLocalIP, if_neg (not_lt.mpr opened)]
  have whole : ifreqs = [] ++ ifreqs := rfl
  exact listIPs_eq_spin whole []

/-- The addresses of the machine without the loopback ones. -/
def outerIPs (ifreqs : List InAddr) : List Bytes :=
  (ifreqs.filter fun addr => addr ≠ loopback).map inetNtoa

/-- One address, repeated, is the list of the outer addresses if all records hold it. -/
theorem replicate_eq_outerIPs {addr : InAddr} {rest : List InAddr} (outside : addr ≠ loopback) :
    List.replicate (rest.length + 1) (inetNtoa addr) = outerIPs (addr :: rest) ↔
      ∀ other ∈ rest, other = addr := by
  constructor
  · intro same other member
    have lengths := congrArg List.length same
    rw [List.length_replicate, outerIPs, List.length_map, ← List.length_cons (a := addr)] at lengths
    have outer := List.length_filter_eq_length_iff.mp lengths.symm
    have listed : inetNtoa other ∈ outerIPs (addr :: rest) := by
      apply List.mem_map_of_mem
      exact List.mem_filter.mpr ⟨List.mem_cons_of_mem _ member,
        outer other (List.mem_cons_of_mem _ member)⟩
    rw [← same] at listed
    exact inetNtoa_inj (List.eq_of_mem_replicate listed)
  · intro all
    have records : addr :: rest = List.replicate (rest.length + 1) addr :=
      List.eq_replicate_iff.mpr ⟨rfl, by simpa using all⟩
    rw [records, outerIPs, List.filter_replicate_of_pos (by simpa using outside),
      List.map_replicate]

theorem spin_eq_outerIPs {ifreqs : List InAddr} :
    spin ifreqs = outerIPs ifreqs ↔
      ∀ addr ∈ ifreqs.dropWhile (· = loopback), ∀ other ∈ ifreqs.dropWhile (· = loopback),
        other = addr := by
  induction ifreqs with
  | nil => simp [spin, outerIPs]
  | cons addr rest ih =>
      by_cases inside : addr = loopback
      · have same : outerIPs (addr :: rest) = outerIPs rest := by simp [outerIPs, inside]
        rw [spin, if_pos inside, same, ih, List.dropWhile_cons_of_pos (by simpa using inside)]
      · rw [spin, if_neg inside, replicate_eq_outerIPs inside,
          List.dropWhile_cons_of_neg (by simpa using inside)]
        constructor
        · intro all first member second inside
          have equal : ∀ third ∈ addr :: rest, third = addr := by simpa using all
          rw [equal first member, equal second inside]
        · intro all other member
          exact all addr List.mem_cons_self other (List.mem_cons_of_mem _ member)

/-- All addresses are listed exactly when the records behind the leading loopback ones are alike. -/
theorem getLocalIP_lists_iff {sockfd : Int} (opened : 0 ≤ sockfd) (ifreqs : List InAddr) :
    getLocalIP sockfd ifreqs = some (outerIPs ifreqs) ↔
      ∀ addr ∈ ifreqs.dropWhile (· = loopback), ∀ other ∈ ifreqs.dropWhile (· = loopback),
        other = addr := by
  rw [getLocalIP_eq opened, Option.some.injEq]
  exact spin_eq_outerIPs

/-- The records of a machine with one network card. -/
theorem getLocalIP_lists_iff_card :
    getLocalIP 3 [loopback, ⟨10, 0, 0, 5⟩] = some (outerIPs [loopback, ⟨10, 0, 0, 5⟩]) ↔
      ∀ addr ∈ [loopback, ⟨10, 0, 0, 5⟩].dropWhile (· = loopback),
        ∀ other ∈ [loopback, ⟨10, 0, 0, 5⟩].dropWhile (· = loopback), other = addr :=
  getLocalIP_lists_iff (by decide) _

/-- The first of two addresses is listed twice, and the second one is missing. -/
theorem twoCards_not_listed :
    ¬∀ sockfd ifreqs, 0 ≤ sockfd → getLocalIP sockfd ifreqs = some (outerIPs ifreqs) := by
  intro listed
  have second := listed 3 [loopback, ⟨10, 0, 0, 5⟩, ⟨10, 0, 0, 6⟩] (by decide)
  revert second
  decide +kernel

end QServer
