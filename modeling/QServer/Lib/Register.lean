import Mathlib.Data.List.Induction
import Mathlib.Data.List.Nodup
import Mathlib.Data.Nat.Basic
import Mathlib.Tactic.Common

namespace Container

/-- A register takes names, gives them up one by one, or is cleared. -/
inductive RegisterAct (α : Type)
  | add (name : α)
  | remove (name : α)
  | clear
deriving DecidableEq

namespace RegisterAct

variable {α : Type} [DecidableEq α]

/-- The act strikes the name off. -/
def Drops (name : α) : RegisterAct α → Prop
  | add _ => False
  | remove other => other = name
  | clear => True

/-- The name was added and has not been struck off since. -/
def Kept (acts : List (RegisterAct α)) (name : α) : Prop :=
  ∃ before after, acts = before ++ add name :: after ∧ ∀ act ∈ after, ¬act.Drops name

variable (admits : α → Prop) [DecidablePred admits]

/-- A new name that is admitted comes to the end. -/
def perform (names : List α) : RegisterAct α → List α
  | add name => if admits name ∧ name ∉ names then names ++ [name] else names
  | remove name => names.filter fun other => other ≠ name
  | clear => []

/-- The names of a register after the acts. -/
def names (acts : List (RegisterAct α)) : List α := acts.foldl (perform admits) []

/-- The act at the place brings the name in. -/
def Adds (acts : List (RegisterAct α)) (place : Nat) (name : α) : Prop :=
  acts[place]? = some (add name) ∧ admits name ∧ ¬Kept (acts.take place) name

/-- The name came in at the place, and at no later one. -/
def LastAdds (acts : List (RegisterAct α)) (place : Nat) (name : α) : Prop :=
  Adds admits acts place name ∧ ∀ later, Adds admits acts later name → later ≤ place

/-- The first name came in before the second one. -/
def Earlier (acts : List (RegisterAct α)) (first second : α) : Prop :=
  ∃ place later, LastAdds admits acts place first ∧ LastAdds admits acts later second ∧
    place < later

variable {admits} {acts : List (RegisterAct α)} {act : RegisterAct α} {name : α} {place : Nat}

theorem names_snoc : names admits (acts ++ [act]) = perform admits (names admits acts) act := by
  rw [names, List.foldl_append, List.foldl_cons, List.foldl_nil]
  rfl

omit [DecidableEq α] in
theorem kept_snoc : Kept (acts ++ [act]) name ↔
    act = add name ∨ Kept acts name ∧ ¬act.Drops name := by
  constructor
  · rintro ⟨before, after, whole, safe⟩
    cases after using List.reverseRecOn with
    | nil =>
        obtain ⟨_, last⟩ := List.append_inj' whole rfl
        exact Or.inl (List.singleton_inj.mp last)
    | append_singleton after last _ =>
        rw [← List.cons_append, ← List.append_assoc] at whole
        obtain ⟨same, final⟩ := List.append_inj' whole rfl
        rw [List.singleton_inj] at final
        refine Or.inr ⟨⟨before, after, same, fun act member => ?_⟩, ?_⟩
        · exact safe act (List.mem_append_left _ member)
        · rw [final]
          exact safe last (List.mem_append_right _ List.mem_cons_self)
  · rintro (rfl | ⟨⟨before, after, rfl, safe⟩, stays⟩)
    · exact ⟨acts, [], rfl, by simp⟩
    · refine ⟨before, after ++ [act], by simp, fun other member => ?_⟩
      rcases List.mem_append.mp member with inside | last
      · exact safe other inside
      · rw [List.mem_singleton.mp last]
        exact stays

/-- The register has the admitted names that were added and not struck off since. -/
theorem mem_names (acts : List (RegisterAct α)) (name : α) :
    name ∈ names admits acts ↔ Kept acts name ∧ admits name := by
  induction acts using List.reverseRecOn with
  | nil =>
      constructor
      · intro member
        exact absurd member List.not_mem_nil
      · rintro ⟨⟨before, after, whole, _⟩, _⟩
        simp at whole
  | append_singleton acts act ih =>
      rw [names_snoc, kept_snoc]
      cases act with
      | add other =>
          rw [perform]
          split_ifs with comes
          · rw [List.mem_append, List.mem_singleton, ih, add.injEq]
            constructor
            · rintro (old | rfl)
              · exact ⟨Or.inr ⟨old.1, id⟩, old.2⟩
              · exact ⟨Or.inl rfl, comes.1⟩
            · rintro ⟨rfl | old, admitted⟩
              · exact Or.inr rfl
              · exact Or.inl ⟨old.1, admitted⟩
          · rw [ih, add.injEq]
            constructor
            · rintro ⟨kept, admitted⟩
              exact ⟨Or.inr ⟨kept, id⟩, admitted⟩
            · rintro ⟨rfl | old, admitted⟩
              · exact ih.mp (not_not.mp fun absent => comes ⟨admitted, absent⟩)
              · exact ⟨old.1, admitted⟩
      | remove other =>
          rw [perform, List.mem_filter, decide_eq_true_eq, ih, ne_comm, and_right_comm]
          simp only [reduceCtorEq, false_or, Drops]
      | clear => simp [perform, Drops]

omit [DecidableEq α] [DecidablePred admits] in
theorem Adds.lt_length (adds : Adds admits acts place name) : place < acts.length := by
  by_contra outside
  rw [Adds, List.getElem?_eq_none (not_lt.mp outside)] at adds
  exact absurd adds.1 (by simp)

theorem adds_snoc : Adds admits (acts ++ [act]) place name ↔
    Adds admits acts place name ∨
      place = acts.length ∧ act = add name ∧ admits name ∧ name ∉ names admits acts := by
  unfold Adds
  rcases lt_trichotomy place acts.length with inside | rfl | outside
  · rw [List.getElem?_append_left inside, List.take_append_of_le_length (Nat.le_of_lt inside)]
    constructor
    · exact Or.inl
    · rintro (old | ⟨last, _⟩)
      · exact old
      · exact absurd last (Nat.ne_of_lt inside)
  · rw [List.getElem?_concat_length, List.take_left, Option.some.injEq,
      List.getElem?_eq_none (le_refl _), mem_names]
    constructor
    · rintro ⟨added, admitted, fresh⟩
      exact Or.inr ⟨rfl, added, admitted, fun kept => fresh kept.1⟩
    · rintro (⟨none, _⟩ | ⟨_, added, admitted, fresh⟩)
      · exact absurd none (by simp)
      · exact ⟨added, admitted, fun kept => fresh ⟨kept, admitted⟩⟩
  · have past : (acts ++ [act]).length ≤ place := by
      rw [List.length_append, List.length_singleton]
      exact outside
    rw [List.getElem?_eq_none past, List.getElem?_eq_none (Nat.le_of_lt outside)]
    constructor
    · rintro ⟨none, _⟩
      exact absurd none (by simp)
    · rintro (⟨none, _⟩ | ⟨last, _⟩)
      · exact absurd none (by simp)
      · exact absurd last.symm (Nat.ne_of_lt outside)

/-- An act that brings another name in, or none, leaves the last place of a name. -/
theorem LastAdds.snoc (last : LastAdds admits acts place name)
    (quiet : act = add name → ¬(admits name ∧ name ∉ names admits acts)) :
    LastAdds admits (acts ++ [act]) place name := by
  refine ⟨adds_snoc.mpr (Or.inl last.1), fun later adds => ?_⟩
  rcases adds_snoc.mp adds with old | ⟨_, added, comes⟩
  · exact last.2 later old
  · exact absurd comes (quiet added)

theorem lastAdds_new (comes : admits name ∧ name ∉ names admits acts) :
    LastAdds admits (acts ++ [add name]) acts.length name := by
  refine ⟨adds_snoc.mpr (Or.inr ⟨rfl, rfl, comes⟩), fun later adds => ?_⟩
  have inside := adds.lt_length
  rw [List.length_append, List.length_singleton] at inside
  exact Nat.lt_succ_iff.mp inside

theorem Earlier.snoc {first second : α} (earlier : Earlier admits acts first second)
    (quietFirst : act = add first → ¬(admits first ∧ first ∉ names admits acts))
    (quietSecond : act = add second → ¬(admits second ∧ second ∉ names admits acts)) :
    Earlier admits (acts ++ [act]) first second := by
  obtain ⟨place, later, lastFirst, lastSecond, before⟩ := earlier
  exact ⟨place, later, lastFirst.snoc quietFirst, lastSecond.snoc quietSecond, before⟩

theorem lastAdds_of_mem (member : name ∈ names admits acts) :
    ∃ place, LastAdds admits acts place name := by
  induction acts using List.reverseRecOn with
  | nil => exact absurd member List.not_mem_nil
  | append_singleton acts act ih =>
      by_cases new : act = add name ∧ admits name ∧ name ∉ names admits acts
      · obtain ⟨rfl, comes⟩ := new
        exact ⟨acts.length, lastAdds_new comes⟩
      · have kept : name ∈ names admits acts := by
          rw [mem_names, kept_snoc] at member
          obtain ⟨rfl | old, admitted⟩ := member
          · exact not_not.mp fun absent => new ⟨rfl, admitted, absent⟩
          · exact (mem_names _ _).mpr ⟨old.1, admitted⟩
        obtain ⟨place, last⟩ := ih kept
        exact ⟨place, last.snoc fun added comes => new ⟨added, comes⟩⟩

/-- The names stand in the order in which they last came in. -/
theorem names_ordered (acts : List (RegisterAct α)) :
    (names admits acts).Pairwise (Earlier admits acts) := by
  induction acts using List.reverseRecOn with
  | nil => exact List.Pairwise.nil
  | append_singleton acts act ih =>
      rw [names_snoc]
      -- a name that is there does not come in once more
      have quiet : ∀ name ∈ names admits acts,
          act = add name → ¬(admits name ∧ name ∉ names admits acts) :=
        fun _ member _ comes => comes.2 member
      have moved : (names admits acts).Pairwise (Earlier admits (acts ++ [act])) :=
        ih.imp_of_mem fun first second earlier =>
          earlier.snoc (quiet _ first) (quiet _ second)
      cases act with
      | add name =>
          rw [perform]
          split_ifs with comes
          · rw [List.pairwise_append]
            refine ⟨moved, List.pairwise_singleton _ _, fun first member second single => ?_⟩
            rw [List.mem_singleton.mp single]
            obtain ⟨place, last⟩ := lastAdds_of_mem member
            exact ⟨place, acts.length, last.snoc (quiet _ member), lastAdds_new comes,
              last.1.lt_length⟩
          · exact moved
      | remove name => exact moved.filter _
      | clear => exact List.Pairwise.nil

end RegisterAct

end Container
