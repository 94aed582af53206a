import QServer.Redis.FormatCommand
import Mathlib.Data.List.ReduceOption

/-
This file proves which words redis reads in a formatted command. The format decides how many words
there are, and the arguments only fill them.
-/

namespace QServer
open Wire FormatCommand

/-- What stands in a format. -/
inductive Token
  | space
  | literal (byte : UInt8)
  | directive (meaning : Directive)
  | failed (failure : FormatFailure)

def Token.isSpace : Token → Bool
  | .space => true
  | _ => false

namespace FormatCommand

def tokens (format : Bytes) : List Token :=
  match format with
  | [] => []
  | byte :: rest =>
      if byte ≠ '%'.toUInt8 ∨ rest = [] then
        (if byte = ' '.toUInt8 then .space else .literal byte) :: tokens rest
      else
        match _moved : FormatCommand.directive rest with
        | .error failure => [.failed failure]
        | .ok (meaning, left) => .directive meaning :: tokens left
termination_by format.length
decreasing_by
  · exact Nat.lt_succ_self _
  · exact Nat.lt_succ_of_lt (directive_length _moved)

/-- The texts of the tokens, with none for a space. -/
def fill (print : Bytes → VaArg → Bytes) :
    List Token → List VaArg → Except FormatFailure (List (Option Bytes))
  | [], _ => .ok []
  | .space :: rest, ap => (fill print rest ap).map (none :: ·)
  | .literal byte :: rest, ap => (fill print rest ap).map (some [byte] :: ·)
  | .directive meaning :: rest, ap =>
      (expand print meaning ap).bind fun taken =>
        (fill print rest taken.2).map (some taken.1 :: ·)
  | .failed failure :: _, _ => .error failure

/-- The words stand between the spaces. An empty text makes an empty word. -/
def words (pieces : List (Option Bytes)) : List Bytes :=
  ((pieces.splitOnP Option.isNone).filter (· ≠ [])).map fun word => word.reduceOption.flatten

/-- The number of words, of which each has a token at least. -/
def wordCount (spaces : List Bool) : Nat := ((spaces.splitOnP id).filter (· ≠ [])).length

/-- The number of words of a format, whatever its arguments are. -/
def argc (format : Bytes) : Nat := wordCount ((tokens format).map Token.isSpace)

section Loop

variable {print : Bytes → VaArg → Bytes}

/-- One token's effect on the variables of the loop. -/
def Scan.add (scan : Scan) : Option Bytes → Scan
  | none => scan.close
  | some text => scan.cat text

theorem map_map {α β γ : Type} (result : Except FormatFailure α) (f : α → β) (g : β → γ) :
    (result.map f).map g = result.map fun value => g (f value) := by
  cases result <;> rfl

theorem bind_congr {α β γ δ : Type} {first : Except FormatFailure α}
    {second : Except FormatFailure β} {f : α → γ} {g : β → γ} (same : first.map f = second.map g)
    (next : γ → Except FormatFailure δ) :
    (first.bind fun value => next (f value)) = second.bind fun value => next (g value) := by
  cases first with
  | error failure =>
      cases second with
      | error other =>
          cases same
          rfl
      | ok value => cases same
  | ok found =>
      cases second with
      | error other => cases same
      | ok value => exact congrArg next (Except.ok.inj same)

theorem bind_eq_ok {α β : Type} {result : Except FormatFailure α}
    {next : α → Except FormatFailure β} {value : β} :
    result.bind next = .ok value ↔ ∃ found, result = .ok found ∧ next found = .ok value := by
  cases result <;> simp [Except.bind]

/-- The loop takes the tokens one by one. -/
theorem formatLoop_eq (format : Bytes) (ap : List VaArg) (scan : Scan) :
    formatLoop print format ap scan =
      (fill print (tokens format) ap).map fun pieces => pieces.foldl Scan.add scan := by
  fun_induction formatLoop print format ap scan with
  | case1 ap scan =>
      rw [tokens]
      rfl
  | case2 ap scan rest plain ih =>
      rw [tokens, if_pos plain, if_pos rfl, fill, map_map, ih]
      rfl
  | case3 ap scan byte rest plain other ih =>
      rw [tokens, if_pos plain, if_neg other, fill, map_map, ih]
      rfl
  | case4 ap scan byte rest percent failure refused =>
      rw [tokens, if_neg percent]
      split
      · rename_i found
        rw [refused] at found
        cases found
        rfl
      · rename_i found
        rw [refused] at found
        cases found
  | case5 ap scan byte rest percent meaning left taken failure refused =>
      rw [tokens, if_neg percent]
      split
      · rename_i found
        rw [taken] at found
        cases found
      · rename_i found
        rw [taken] at found
        cases found
        rw [fill, refused]
        rfl
  | case6 ap scan byte rest percent meaning left taken text later expanded ih =>
      rw [tokens, if_neg percent]
      split
      · rename_i found
        rw [taken] at found
        cases found
      · rename_i found
        rw [taken] at found
        cases found
        rw [fill, expanded, ih]
        change _ = Except.map _ ((fill print (tokens left) later).map _)
        rw [map_map]
        rfl

/-- The words of the pieces that are still to come, with the current word in front. -/
theorem foldl_add (pieces current : List (Option Bytes)) (argv : List Bytes) :
    (pieces.foldl Scan.add
        ⟨current.reverse.reduceOption.flatten, decide (current ≠ []), argv⟩).close.curargv =
      argv ++ ((List.splitOnPPrepend Option.isNone pieces current).filter (· ≠ [])).map
        fun word => word.reduceOption.flatten := by
  induction pieces generalizing current argv with
  | nil =>
      rw [List.foldl_nil, List.splitOnPPrepend_nil]
      cases current with
      | nil => simp [Scan.close]
      | cons piece current => simp [Scan.close]
  | cons piece pieces ih =>
      cases piece with
      | none =>
          have next := ih [] (argv ++ (([current.reverse].filter (· ≠ [])).map
            fun word => word.reduceOption.flatten))
          rw [List.splitOnPPrepend_cons_pos rfl, List.foldl_cons]
          rw [List.splitOnPPrepend_nil_right, List.append_assoc, ← List.map_append,
            ← List.filter_append] at next
          rw [List.singleton_append] at next
          rw [← next]
          cases current with
          | nil => simp [Scan.add, Scan.close]
          | cons piece current => simp [Scan.add, Scan.close]
      | some text =>
          have next := ih (some text :: current) argv
          rw [List.splitOnPPrepend_cons_neg rfl, List.foldl_cons, ← next]
          simp [Scan.add, Scan.cat, List.reduceOption_append, List.reduceOption_cons_of_some]

/-- The arguments that the loop leaves behind are the words. -/
theorem formatLoop_words (format : Bytes) (ap : List VaArg) :
    (formatLoop print format ap ⟨[], false, []⟩).map (fun scan => scan.close.curargv) =
      (fill print (tokens format) ap).map words := by
  rw [formatLoop_eq, map_map]
  cases fill print (tokens format) ap with
  | error failure => rfl
  | ok pieces =>
      have whole := foldl_add pieces [] []
      rw [List.splitOnPPrepend_nil_right, List.nil_append] at whole
      exact congrArg Except.ok whole

end Loop

section Layout

/-- The sizes that `countDigits` finds are those of `sprintf`. -/
theorem countDigits_eq (v : Nat) : countDigits v = (Resp.decimal v).length := by
  rw [Resp.length_decimal]
  fun_induction countDigits v with
  | case1 v small => rw [Nat.log_of_lt small]
  | case2 v large small =>
      have digits : Nat.log 10 v = 1 := (Nat.log_eq_iff (Or.inl (by decide))).mpr ⟨by omega, by omega⟩
      rw [digits]
  | case3 v _ large small =>
      have digits : Nat.log 10 v = 2 := (Nat.log_eq_iff (Or.inl (by decide))).mpr ⟨by omega, by omega⟩
      rw [digits]
  | case4 v _ _ large small =>
      have digits : Nat.log 10 v = 3 := (Nat.log_eq_iff (Or.inl (by decide))).mpr ⟨by omega, by omega⟩
      rw [digits]
  | case5 v _ _ _ large ih =>
      have split : v / 10000 = v / 10 / 10 / 10 / 10 := by omega
      rw [ih, split, Nat.log_div_base, Nat.log_div_base, Nat.log_div_base, Nat.log_div_base]
      have long : 4 ≤ Nat.log 10 v := (Nat.le_log_iff_pow_le (by decide) (by omega)).mpr (by omega)
      omega

theorem bulklen_eq (text : Bytes) : bulklen text.length = (Resp.bulk text).length := by
  rw [bulklen, countDigits_eq, Resp.length_bulk]

/-- The assertion about `pos` and `totlen`. -/
theorem totlen_eq (argv : List Bytes) : totlen argv = (Resp.command argv).length := by
  have sizes : (argv.map fun arg => bulklen arg.length) =
      argv.map fun arg => (Resp.bulk arg).length :=
    List.map_congr_left fun arg _ => bulklen_eq arg
  rw [totlen, sizes, countDigits_eq, Resp.length_command]
  omega

theorem build_eq (argv : List Bytes) : build argv = Resp.command argv := by
  have loop (args : List Bytes) (front : Bytes) :
      args.foldl (fun cmd arg => cmd ++ '$'.toUInt8 :: Resp.decimal arg.length ++ Resp.crlf ++
        arg ++ Resp.crlf) front = front ++ args.flatMap Resp.bulk := by
    induction args generalizing front with
    | nil => exact (List.append_nil front).symm
    | cons arg args ih =>
        rw [List.foldl_cons, ih, List.flatMap_cons, Resp.bulk]
        simp only [List.append_assoc, List.cons_append]
        rfl
  rw [build, loop]
  rfl

theorem emit_eq_ok {argv : List Bytes} {cmd : Bytes} :
    emit argv = .ok cmd ↔ totlen argv + 1 < 2 ^ 31 ∧ cmd = Resp.command argv := by
  have fits : Int.bmod (totlen argv) (2 ^ 32) = totlen argv ↔ totlen argv < 2 ^ 31 := by
    rw [Int.bmod_eq_iff (by decide)]
    omega
  dsimp only [emit]
  rw [build_eq]
  constructor
  · intro written
    split_ifs at written with negative same
    cases written
    rw [same.1] at same
    exact ⟨by omega, rfl⟩
  · rintro ⟨small, rfl⟩
    have same := fits.mpr (Nat.lt_of_succ_lt small)
    rw [same, if_neg (by omega), if_pos ⟨rfl, by omega⟩]

end Layout

theorem length_words (pieces : List (Option Bytes)) :
    (words pieces).length = wordCount (pieces.map Option.isNone) := by
  have split : (pieces.map Option.isNone).splitOnP id =
      (pieces.splitOnP Option.isNone).map (List.map Option.isNone) := by
    induction pieces with
    | nil => rfl
    | cons piece pieces ih =>
        rw [List.map_cons, List.splitOnP_cons_eq_if_modifyHead, List.splitOnP_cons_eq_if_modifyHead,
          ih]
        cases piece with
        | none => rfl
        | some text =>
            cases pieces.splitOnP Option.isNone <;> rfl
  rw [words, wordCount, split, List.length_map, List.filter_map, List.length_map]
  congr 2
  funext word
  cases word <;> rfl

theorem fill_spaces {print : Bytes → VaArg → Bytes} {found : List Token} {ap : List VaArg}
    {pieces : List (Option Bytes)} (filled : fill print found ap = .ok pieces) :
    pieces.map Option.isNone = found.map Token.isSpace := by
  induction found generalizing ap pieces with
  | nil =>
      cases filled
      rfl
  | cons token found ih =>
      cases token with
      | space =>
          cases rest : fill print found ap with
          | error failure => simp [fill, rest, Except.map] at filled
          | ok others =>
              simp only [fill, rest, Except.map, Except.ok.injEq] at filled
              rw [← filled, List.map_cons, List.map_cons, ih rest]
              rfl
      | literal byte =>
          cases rest : fill print found ap with
          | error failure => simp [fill, rest, Except.map] at filled
          | ok others =>
              simp only [fill, rest, Except.map, Except.ok.injEq] at filled
              rw [← filled, List.map_cons, List.map_cons, ih rest]
              rfl
      | directive meaning =>
          cases expanded : expand print meaning ap with
          | error failure => simp [fill, expanded, Except.bind] at filled
          | ok taken =>
              cases rest : fill print found taken.2 with
              | error failure => simp [fill, expanded, rest, Except.map, Except.bind] at filled
              | ok others =>
                  simp only [fill, expanded, rest, Except.map, Except.bind,
                    Except.ok.injEq] at filled
                  rw [← filled, List.map_cons, List.map_cons, ih rest]
                  rfl
      | failed failure => cases filled

end FormatCommand

theorem redisvFormatCommand_eq {print : Bytes → VaArg → Bytes} {format : Bytes} {ap : List VaArg} :
    redisvFormatCommand print format ap =
      (fill print (tokens format) ap).bind fun pieces => emit (words pieces) :=
  bind_congr (formatLoop_words format ap) emit

theorem redisvFormatCommand_eq_ok {print : Bytes → VaArg → Bytes} {format : Bytes}
    {ap : List VaArg} {cmd : Bytes} :
    redisvFormatCommand print format ap = .ok cmd ↔
      ∃ pieces, fill print (tokens format) ap = .ok pieces ∧ totlen (words pieces) + 1 < 2 ^ 31 ∧
        cmd = Resp.command (words pieces) := by
  rw [redisvFormatCommand_eq, bind_eq_ok]
  simp only [emit_eq_ok]

end QServer
