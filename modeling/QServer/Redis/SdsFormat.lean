import Mathlib.Algebra.Order.BigOperators.Group.List
import QServer.Redis.FormatWords
import QServer.Redis.SdsText

/-
This file follows `Connection::redisvFormatCommand` down to the strings that it builds.
-/

namespace QServer
open Wire Memory FormatCommand

/-- What the allocator does for the strings and the array in one turn of the loop. -/
structure FormatHeap where
  current : Heap
  next : Heap
  -- The buffers of `vsnprintf`.
  granted : Nat → Bool
  argv : Bool

/-- A null string ends the command with a memory error. -/
def SdsFailure.format : SdsFailure → FormatFailure
  | .null => .memoryErr
  | .undefined => .undefined

/-- The variables of the loop with their strings. -/
structure SdsScan where
  curarg : Sds
  touched : Bool
  curargv : List Sds

namespace SdsScan

variable (heap : FormatHeap) (scan : SdsScan)

/-- The new string is the current argument. -/
def keep (newarg : Except SdsFailure Sds) : Except FormatFailure SdsScan :=
  (newarg.mapError SdsFailure.format).map fun newarg => ⟨newarg, true, scan.curargv⟩

/-- The array grows before the next argument starts. -/
def push : Except FormatFailure SdsScan :=
  if heap.argv then
    ((Sds.sdsempty heap.next).mapError SdsFailure.format).map fun curarg =>
      ⟨curarg, false, scan.curargv ++ [scan.curarg]⟩
  else .error .memoryErr

def close : Except FormatFailure SdsScan := if scan.touched then scan.push heap else .ok scan

/-- A character of the format. -/
def character (byte : UInt8) : Except FormatFailure SdsScan :=
  scan.keep (scan.curarg.sdscatlen heap.current [byte] 1)

/-- The string after a directive with its text. -/
def append (text : Bytes) : Directive → Except SdsFailure Sds
  | .string => if text = [] then .ok scan.curarg else scan.curarg.sdscatlen heap.current text text.length
  | .binary => if text = [] then .ok scan.curarg else scan.curarg.sdscatlen heap.current text text.length
  | .percent => scan.curarg.sdscat heap.current ['%'.toUInt8, 0]
  | .number format _ => scan.curarg.sdscatvprintf heap.current heap.granted format.length text
  | .overlong _ => .ok scan.curarg

/-- The last argument goes to the array without a new one. -/
def finish : Except FormatFailure (List Sds) :=
  if scan.touched then
    if heap.argv then .ok (scan.curargv ++ [scan.curarg]) else .error .memoryErr
  else .ok scan.curargv

end SdsScan

/-- The loop, with what the allocator does in each turn. -/
def sdsFormatLoop (print : Bytes → VaArg → Bytes) (heaps : Nat → FormatHeap) (format : Bytes)
    (ap : List VaArg) (scan : SdsScan) : Except FormatFailure SdsScan :=
  match format with
  | [] => .ok scan
  | byte :: rest =>
      if byte ≠ '%'.toUInt8 ∨ rest = [] then
        if byte = ' '.toUInt8 then
          (scan.close (heaps 0)).bind fun scan =>
            sdsFormatLoop print (fun turn => heaps (turn + 1)) rest ap scan
        else
          (scan.character (heaps 0) byte).bind fun scan =>
            sdsFormatLoop print (fun turn => heaps (turn + 1)) rest ap scan
      else
        match _moved : directive rest with
        | .error failure => .error failure
        | .ok (meaning, left) =>
            match expand print meaning ap with
            | .error failure => .error failure
            | .ok (text, ap) =>
                (scan.keep (scan.append (heaps 0) text meaning)).bind fun scan =>
                  sdsFormatLoop print (fun turn => heaps (turn + 1)) left ap scan
termination_by format.length
decreasing_by
  · exact Nat.lt_succ_self _
  · exact Nat.lt_succ_self _
  · exact Nat.lt_succ_of_lt (directive_length _moved)

/-- The command from the strings, where `written` tells whether there is memory for it. -/
def sdsFormatCommand (print : Bytes → VaArg → Bytes) (heaps : Nat → FormatHeap) (last : FormatHeap)
    (written : Bool) (format : Bytes) (ap : List VaArg) : Except FormatFailure Bytes :=
  ((Sds.sdsempty (heaps 0).next).mapError SdsFailure.format).bind fun curarg =>
    (sdsFormatLoop print (fun turn => heaps (turn + 1)) format ap ⟨curarg, false, []⟩).bind
      fun scan => (scan.finish last).bind fun argv =>
        if written then emit (argv.map Sds.text) else .error .memoryErr

/-- There is memory for every string of a command. -/
structure FormatHeap.Willing (heap : FormatHeap) : Prop where
  current : ∀ size < 2 ^ 33, heap.current.malloc size ≠ none
  next : ∀ size < 2 ^ 33, heap.next.malloc size ≠ none
  granted : ∀ size, heap.granted size = true
  argv : heap.argv = true

theorem Sds.not_refuses {heap : Heap} (grants : ∀ size < 2 ^ 33, heap.malloc size ≠ none)
    {length : Nat} (small : length < 2 ^ 31) : ¬Sds.Refuses heap length := by
  rintro ⟨size, bound, refused⟩
  refine grants size ?_ refused
  unfold sdsMaxPrealloc at bound
  omega

namespace FormatCommand.Scan

/-- The bytes of all arguments. -/
def size (scan : Scan) : Nat := (scan.close.curargv.map List.length).sum

theorem close_close (scan : Scan) : scan.close.close = scan.close := by
  unfold close
  by_cases touched : scan.touched = true
  · rw [if_pos touched, if_neg Bool.false_ne_true]
  · rw [if_neg touched, if_neg touched]

theorem size_close (scan : Scan) : scan.close.size = scan.size := by
  rw [size, close_close, size]

theorem size_cat (scan : Scan) (text : Bytes) :
    (scan.cat text).size =
      (scan.curargv.map List.length).sum + (scan.curarg.length + text.length) := by
  have closed : (scan.cat text).close =
      ⟨[], false, scan.curargv ++ [scan.curarg ++ text]⟩ := rfl
  rw [size, closed, List.map_append, List.sum_append, List.map_singleton, List.sum_singleton,
    List.length_append]

theorem size_le_cat (scan : Scan) (text : Bytes) : scan.size ≤ (scan.cat text).size := by
  rw [size_cat]
  unfold size close
  by_cases touched : scan.touched = true
  · rw [if_pos touched, List.map_append, List.sum_append, List.map_singleton, List.sum_singleton]
    omega
  · rw [if_neg touched]
    exact Nat.le_add_right _ _

end FormatCommand.Scan

/-- The arguments only grow. -/
theorem FormatCommand.size_le_formatLoop {print : Bytes → VaArg → Bytes} (format : Bytes)
    (ap : List VaArg) (scan : Scan) {last : Scan}
    (formatted : formatLoop print format ap scan = .ok last) : scan.size ≤ last.size := by
  fun_induction formatLoop print format ap scan with
  | case1 ap scan =>
      cases formatted
      exact Nat.le_refl _
  | case2 ap scan rest plain ih => exact scan.size_close.symm.trans_le (ih formatted)
  | case3 ap scan byte rest plain other ih => exact (scan.size_le_cat _).trans (ih formatted)
  | case4 ap scan byte rest directed failure failed => cases formatted
  | case5 ap scan byte rest directed meaning left moved failure failed => cases formatted
  | case6 ap scan byte rest directed meaning left moved text later expanded ih =>
      exact (scan.size_le_cat _).trans (ih formatted)

namespace SdsScan

/-- The texts of the strings. -/
def view (scan : SdsScan) : Scan :=
  ⟨scan.curarg.text, scan.touched, scan.curargv.map Sds.text⟩

/-- All strings are valid. -/
def Valid (scan : SdsScan) : Prop := scan.curarg.Valid ∧ ∀ arg ∈ scan.curargv, arg.Valid

/-- A step without memory for its texts fails, and every other one gives valid strings with the
texts. -/
def Follows (heap : FormatHeap) (result : Except FormatFailure SdsScan) (scan : Scan) : Prop :=
  result = .error .memoryErr ∧ (heap.Willing → 2 ^ 31 ≤ scan.size) ∨
    ∃ next, result = .ok next ∧ next.Valid ∧ next.view = scan

variable {heap : FormatHeap} {scan : SdsScan}

theorem keep_follows (valid : scan.Valid) {refusal : Prop} {result : Except SdsFailure Sds}
    {text : Bytes} (gives : Sds.Gives refusal result (scan.curarg.text ++ text))
    (enough : heap.Willing → scan.curarg.text.length + text.length < 2 ^ 31 → ¬refusal) :
    Follows heap (scan.keep result) (scan.view.cat text) := by
  rcases gives with ⟨refused, rfl⟩ | ⟨newarg, rfl, after, content⟩
  · refine Or.inl ⟨rfl, fun willing => ?_⟩
    have large := fun small => enough willing small refused
    rw [Scan.size_cat]
    have part : 2 ^ 31 ≤ scan.view.curarg.length + text.length := Nat.le_of_not_lt large
    omega
  · refine Or.inr ⟨_, rfl, ⟨after, valid.2⟩, ?_⟩
    rw [view, content]
    rfl

theorem close_follows (valid : scan.Valid) :
    Follows heap (scan.close heap) scan.view.close := by
  unfold close Scan.close
  by_cases touched : scan.touched = true
  · rw [if_pos touched, if_pos (show scan.view.touched = true from touched), push]
    split_ifs with array
    · rcases Sds.gives_sdsempty heap.next with ⟨refused, null⟩ | ⟨curarg, made, after, content⟩
      · rw [null]
        exact Or.inl ⟨rfl, fun willing =>
          absurd refused (Sds.not_refuses willing.next (by decide))⟩
      · rw [made]
        refine Or.inr ⟨_, rfl, ⟨after, fun arg member => ?_⟩, ?_⟩
        · rcases List.mem_append.mp member with old | new
          · exact valid.2 arg old
          · rw [List.mem_singleton.mp new]
            exact valid.1
        · rw [view, content, List.map_append]
          rfl
    · exact Or.inl ⟨rfl, fun willing => absurd willing.argv array⟩
  · rw [if_neg touched, if_neg (show ¬scan.view.touched = true from touched)]
    exact Or.inr ⟨scan, rfl, valid, rfl⟩

theorem character_follows (valid : scan.Valid) (byte : UInt8) :
    Follows heap (scan.character heap byte) (scan.view.cat [byte]) := by
  have small : [byte].length ≤ addressSpace := Nat.one_le_two_pow
  exact keep_follows valid (valid.1.sdscatlen heap.current (Nat.le_refl 1) small)
    fun willing short => Sds.not_refuses willing.current short

/-- An argument without bytes leaves the string as it is. -/
theorem argument_follows (valid : scan.Valid) {text : Bytes} (small : text.length ≤ addressSpace) :
    Follows heap (scan.keep (if text = [] then .ok scan.curarg
      else scan.curarg.sdscatlen heap.current text text.length)) (scan.view.cat text) := by
  split_ifs with empty
  · have same : Sds.Gives False (.ok scan.curarg) (scan.curarg.text ++ text) :=
      Or.inr ⟨scan.curarg, rfl, valid.1, by rw [empty, List.append_nil]⟩
    exact keep_follows valid same fun _ _ => id
  · have given := valid.1.sdscatlen heap.current (Nat.le_refl text.length) small
    rw [List.take_length] at given
    exact keep_follows valid given fun willing short => Sds.not_refuses willing.current short

/-- The text of a number has no zero in it. -/
theorem append_follows (valid : scan.Valid) {text : Bytes} (small : text.length < addressSpace)
    {meaning : Directive}
    (percent : meaning = .percent → text = ['%'.toUInt8])
    (number : ∀ format type, meaning = .number format type → 0 ∉ text)
    (overlong : ∀ type, meaning = .overlong type → text = []) :
    Follows heap (scan.keep (scan.append heap text meaning)) (scan.view.cat text) := by
  cases meaning with
  | string => exact argument_follows valid small.le
  | binary => exact argument_follows valid small.le
  | percent =>
      cases percent rfl
      have short : ['%'.toUInt8, 0].length ≤ addressSpace := by decide
      exact keep_follows valid (valid.1.sdscat heap.current rfl short)
        fun willing short => Sds.not_refuses willing.current short
  | number format type =>
      have whole : text.takeWhile (· ≠ 0) = text :=
        List.takeWhile_eq_self_iff.mpr fun byte member =>
          decide_eq_true fun zero => number format type rfl (zero ▸ member)
      have given := valid.1.sdscatvprintf heap.current heap.granted format.length small
      rw [whole] at given
      refine keep_follows valid given fun willing short => ?_
      rintro (refused | ⟨size, refused⟩)
      · exact Sds.not_refuses willing.current short refused
      · exact Bool.false_ne_true (refused.symm.trans (willing.granted size))
  | overlong type =>
      cases overlong type rfl
      have same : Sds.Gives False (.ok scan.curarg) (scan.curarg.text ++ []) :=
        Or.inr ⟨scan.curarg, rfl, valid.1, (List.append_nil _).symm⟩
      exact keep_follows valid same fun _ _ => id

/-- The array at the end has the texts of the arguments. -/
theorem finish_eq (scan : SdsScan) (heap : FormatHeap) :
    ¬heap.argv = true ∧ scan.finish heap = .error .memoryErr ∨
      ∃ argv, scan.finish heap = .ok argv ∧ argv.map Sds.text = scan.view.close.curargv := by
  unfold finish Scan.close
  by_cases touched : scan.touched = true
  · rw [if_pos touched, if_pos (show scan.view.touched = true from touched)]
    split_ifs with array
    · exact Or.inr ⟨_, rfl, List.map_append⟩
    · exact Or.inl ⟨array, rfl⟩
  · rw [if_neg touched, if_neg (show ¬scan.view.touched = true from touched)]
    exact Or.inr ⟨_, rfl, rfl⟩

/-- The loop fails for want of memory, or comes to what the loop over the texts comes to. -/
def Agrees (heaps : Nat → FormatHeap) (result : Except FormatFailure SdsScan)
    (plain : Except FormatFailure Scan) : Prop :=
  result = .error .memoryErr ∧
      ((∀ turn, (heaps turn).Willing) → ∀ last, plain = .ok last → 2 ^ 31 ≤ last.size) ∨
    (∃ next, result = .ok next ∧ next.Valid ∧ plain = .ok next.view) ∨
    ∃ failure, result = .error failure ∧ plain = .error failure

theorem Follows.bind {heaps : Nat → FormatHeap} {result : Except FormatFailure SdsScan}
    {step : Scan} (follows : Follows (heaps 0) result step)
    {rest : SdsScan → Except FormatFailure SdsScan} {plain : Except FormatFailure Scan}
    (agrees : ∀ next : SdsScan, next.Valid → next.view = step →
      Agrees (fun turn => heaps (turn + 1)) (rest next) plain)
    (grows : ∀ last, plain = .ok last → step.size ≤ last.size) :
    Agrees heaps (result.bind rest) plain := by
  rcases follows with ⟨rfl, large⟩ | ⟨next, rfl, valid, same⟩
  · exact Or.inl ⟨rfl, fun willing last formatted =>
      (large (willing 0)).trans (grows last formatted)⟩
  · rcases agrees next valid same with ⟨null, large⟩ | agreed
    · exact Or.inl ⟨null, fun willing => large fun turn => willing (turn + 1)⟩
    · exact Or.inr agreed

end SdsScan

/-- `vsnprintf` prints no zero, and the arguments are in the memory of the process. -/
structure Printable (print : Bytes → VaArg → Bytes) (ap : List VaArg) : Prop where
  number : ∀ format arg, 0 ∉ print format arg ∧ (print format arg).length < addressSpace
  memory : ∀ memory, VaArg.pointer memory ∈ ap → memory.length < addressSpace

theorem Printable.expand {print : Bytes → VaArg → Bytes} {ap later : List VaArg}
    (printable : Printable print ap) {meaning : Directive} {text : Bytes}
    (expanded : expand print meaning ap = .ok (text, later)) :
    Printable print later ∧ text.length < addressSpace ∧
      (meaning = .percent → text = ['%'.toUInt8]) ∧
      (∀ format type, meaning = .number format type → 0 ∉ text) ∧
      ∀ type, meaning = .overlong type → text = [] := by
  have fewer : ∀ {more}, more <:+ ap → Printable print more := fun suffix =>
    ⟨printable.number, fun memory member => printable.memory memory (suffix.subset member)⟩
  unfold FormatCommand.expand at expanded
  split at expanded
  · rename_i memory rest
    split at expanded
    · rename_i found terminated
      cases expanded
      obtain ⟨_, same⟩ := Option.ite_none_right_eq_some.mp terminated
      have shorter := (List.takeWhile_prefix (l := memory) (· ≠ 0)).length_le
      rw [Option.some.inj same] at shorter
      exact ⟨fewer (List.suffix_cons _ _),
        shorter.trans_lt (printable.memory memory List.mem_cons_self), nofun, nofun, nofun⟩
    · cases expanded
  · rename_i memory size rest
    split_ifs at expanded
    cases expanded
    refine ⟨fewer ((List.suffix_cons _ _).trans (List.suffix_cons _ _)), ?_, nofun, nofun, nofun⟩
    exact (List.length_take_le' _ _).trans_lt (printable.memory memory List.mem_cons_self)
  · cases expanded
    exact ⟨printable, by decide, fun _ => rfl, nofun, nofun⟩
  · rename_i format type arg rest
    split_ifs at expanded
    cases expanded
    exact ⟨fewer (List.suffix_cons _ _), (printable.number format arg).2, nofun,
      fun _ _ _ => (printable.number format arg).1, nofun⟩
  · rename_i type arg rest
    split_ifs at expanded
    cases expanded
    exact ⟨fewer (List.suffix_cons _ _), Nat.two_pow_pos 47, nofun, nofun, fun _ _ => rfl⟩
  · cases expanded

namespace FormatCommand

section Directed

variable {print : Bytes → VaArg → Bytes} {byte : UInt8} {rest : Bytes} {ap : List VaArg}

theorem formatLoop_failed {scan : Scan} (directed : ¬(byte ≠ '%'.toUInt8 ∨ rest = []))
    {failure : FormatFailure} (failed : directive rest = .error failure ∨ ∃ meaning left,
      directive rest = .ok (meaning, left) ∧ expand print meaning ap = .error failure) :
    formatLoop print (byte :: rest) ap scan = .error failure := by
  rw [formatLoop, if_neg directed]
  rcases failed with refused | ⟨meaning, left, moved, refused⟩
  · split
    · rename_i found
      cases refused.symm.trans found
      rfl
    · rename_i found
      cases refused.symm.trans found
  · split
    · rename_i found
      cases moved.symm.trans found
    · rename_i found
      cases moved.symm.trans found
      rw [refused]

theorem formatLoop_directive {scan : Scan} (directed : ¬(byte ≠ '%'.toUInt8 ∨ rest = []))
    {meaning : Directive} {left text : Bytes} {later : List VaArg}
    (moved : directive rest = .ok (meaning, left))
    (expanded : expand print meaning ap = .ok (text, later)) :
    formatLoop print (byte :: rest) ap scan = formatLoop print left later (scan.cat text) := by
  rw [formatLoop, if_neg directed]
  split
  · rename_i found
    cases moved.symm.trans found
  · rename_i found
    cases moved.symm.trans found
    rw [expanded]

end Directed

end FormatCommand

/-- Turn by turn the strings hold the texts. -/
theorem sdsFormatLoop_agrees {print : Bytes → VaArg → Bytes} (heaps : Nat → FormatHeap)
    (format : Bytes) (ap : List VaArg) (printable : Printable print ap) (scan : SdsScan)
    (valid : scan.Valid) :
    SdsScan.Agrees heaps (sdsFormatLoop print heaps format ap scan)
      (formatLoop print format ap scan.view) := by
  fun_induction sdsFormatLoop print heaps format ap scan with
  | case1 heaps ap scan =>
      rw [formatLoop]
      exact Or.inr (Or.inl ⟨scan, rfl, valid, rfl⟩)
  | case2 heaps ap scan rest plain ih =>
      rw [formatLoop, if_pos plain, if_pos rfl]
      refine (SdsScan.close_follows valid).bind (fun next after same => ?_) fun last formatted =>
        size_le_formatLoop rest ap _ formatted
      rw [← same]
      exact ih next printable after
  | case3 heaps ap scan byte rest plain other ih =>
      rw [formatLoop, if_pos plain, if_neg other]
      refine (SdsScan.character_follows valid byte).bind (fun next after same => ?_)
        fun last formatted => size_le_formatLoop rest ap _ formatted
      rw [← same]
      exact ih next printable after
  | case4 heaps ap scan byte rest directed failure failed =>
      exact Or.inr (Or.inr ⟨failure, rfl, formatLoop_failed directed (Or.inl failed)⟩)
  | case5 heaps ap scan byte rest directed meaning left moved failure failed =>
      exact Or.inr (Or.inr ⟨failure, rfl,
        formatLoop_failed directed (Or.inr ⟨meaning, left, moved, failed⟩)⟩)
  | case6 heaps ap scan byte rest directed meaning left moved text later expanded ih =>
      obtain ⟨more, small, percent, number, overlong⟩ := printable.expand expanded
      rw [formatLoop_directive directed moved expanded]
      refine (SdsScan.append_follows valid small percent number overlong).bind
        (fun next after same => ?_) fun last formatted => size_le_formatLoop left later _ formatted
      rw [← same]
      exact ih next more after

theorem FormatCommand.le_totlen (argv : List Bytes) : (argv.map List.length).sum ≤ totlen argv := by
  have each : (argv.map List.length).sum ≤ (argv.map fun arg => bulklen arg.length).sum := by
    refine List.sum_le_sum fun arg _ => ?_
    rw [bulklen]
    omega
  rw [totlen]
  omega

/-- The strings give the command of the texts, or there was no memory for it. -/
theorem strings_format {print : Bytes → VaArg → Bytes} {format : Bytes} {ap : List VaArg}
    (printable : Printable print ap) (heaps : Nat → FormatHeap) (last : FormatHeap)
    (written : Bool) :
    sdsFormatCommand print heaps last written format ap = redisvFormatCommand print format ap ∨
      sdsFormatCommand print heaps last written format ap = .error .memoryErr ∧
        ((∀ turn, (heaps turn).Willing) → last.Willing → written = true →
          ∀ cmd, redisvFormatCommand print format ap ≠ .ok cmd) := by
  unfold sdsFormatCommand redisvFormatCommand
  rcases Sds.gives_sdsempty (heaps 0).next with ⟨refused, null⟩ | ⟨curarg, made, valid, content⟩
  · rw [null]
    exact Or.inr ⟨rfl, fun willing => absurd refused (Sds.not_refuses (willing 0).next (by decide))⟩
  · have first : (⟨curarg, false, []⟩ : SdsScan).view = ⟨[], false, []⟩ := by
      rw [SdsScan.view, content]
      rfl
    have agrees := sdsFormatLoop_agrees (fun turn => heaps (turn + 1)) format ap printable
      ⟨curarg, false, []⟩ ⟨valid, fun arg member => by cases member⟩
    rw [first] at agrees
    rw [made]
    simp only [Except.mapError, Except.bind]
    rcases agrees with ⟨null, large⟩ | ⟨next, formatted, after, same⟩ | ⟨failure, failed, same⟩
    · rw [null]
      refine Or.inr ⟨rfl, fun willing _ _ cmd whole => ?_⟩
      obtain ⟨scan, found, emitted⟩ := bind_eq_ok.mp whole
      have short := Nat.lt_of_succ_lt (emit_eq_ok.mp emitted).1
      have within := large (fun turn => willing (turn + 1)) scan found
      exact absurd (within.trans (le_totlen _)) (Nat.not_le_of_lt short)
    · rw [formatted, same]
      simp only
      rcases next.finish_eq last with ⟨array, null⟩ | ⟨argv, finished, texts⟩
      · rw [null]
        exact Or.inr ⟨rfl, fun _ willing => absurd willing.argv array⟩
      · rw [finished]
        simp only
        split_ifs with memory
        · exact Or.inl (by rw [texts])
        · exact Or.inr ⟨rfl, fun _ _ granted => absurd granted memory⟩
    · rw [failed, same]
      exact Or.inl rfl

/-- Every turn gets all its memory. -/
def willingHeap : FormatHeap := ⟨generousHeap, generousHeap, fun _ => true, true⟩

theorem strings_format_get :
    sdsFormatCommand (fun _ _ => []) (fun _ => willingHeap) willingHeap true (ascii "GET %s")
        [.pointer [107, 0]] =
      redisvFormatCommand (fun _ _ => []) (ascii "GET %s") [.pointer [107, 0]] ∨
      sdsFormatCommand (fun _ _ => []) (fun _ => willingHeap) willingHeap true (ascii "GET %s")
          [.pointer [107, 0]] = .error .memoryErr ∧
        ((∀ _ : Nat, willingHeap.Willing) → willingHeap.Willing → true = true →
          ∀ cmd, redisvFormatCommand (fun _ _ => []) (ascii "GET %s") [.pointer [107, 0]] ≠
            .ok cmd) := by
  have printable : Printable (fun _ _ => []) [.pointer [107, 0]] := by
    refine ⟨fun _ _ => ⟨List.not_mem_nil, Nat.two_pow_pos 47⟩, fun memory member => ?_⟩
    cases List.mem_singleton.mp member
    decide
  exact strings_format printable (fun _ => willingHeap) willingHeap true

end QServer
