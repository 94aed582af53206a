import Mathlib.Data.List.Basic
import Mathlib.Data.List.Nodup
import Mathlib.Tactic.Common

/-
This file is about the histories of an object on which many callers operate at the same time.
-/

namespace Linear

/-- An object that takes one operation after the other. -/
structure Object (State Op Res : Type) where
  start : State
  step : State → Op → State × Res

/-- What happens in a history: calls, their effects and those of others, and returns. -/
inductive Moment (Id Req Op Res Out : Type)
  | call (id : Id) (req : Req)
  -- Others act on the object without an identity.
  | effect (id : Option Id) (op : Op) (res : Res)
  | ret (id : Id) (out : Out)

section Replay

variable {State Op Res : Type} (object : Object State Op Res)

/-- The operations in a row, with the results. -/
def Object.replay : State → List Op → State × List Res
  | state, [] => (state, [])
  | state, op :: ops =>
      let later := replay (object.step state op).1 ops
      (later.1, (object.step state op).2 :: later.2)

theorem replay_concat (state : State) (ops : List Op) (op : Op) :
    object.replay state (ops ++ [op]) =
      ((object.step (object.replay state ops).1 op).1,
        (object.replay state ops).2 ++ [(object.step (object.replay state ops).1 op).2]) := by
  induction ops generalizing state with
  | nil => rfl
  | cons first ops ih =>
      rw [List.cons_append, Object.replay, ih]
      rfl

end Replay

section Histories

variable {Id Req Op Res Out State : Type}

def Moment.operation : Moment Id Req Op Res Out → Option Op
  | .effect _ op _ => some op
  | _ => none

def Moment.result : Moment Id Req Op Res Out → Option Res
  | .effect _ _ res => some res
  | _ => none

/-- The call that acts at the moment. -/
def Moment.actor : Moment Id Req Op Res Out → Option Id
  | .effect id _ _ => id
  | _ => none

/-- Calls act once at most and in their order, and they show what they did. -/
structure Linearizable (object : Object State Op Res) (means : Req → Op → Prop) (view : Res → Out)
    (history : List (Moment Id Req Op Res Out)) (state : State) : Prop where
  sequential : object.replay object.start (history.filterMap Moment.operation) =
    (state, history.filterMap Moment.result)
  once : (history.filterMap Moment.actor).Nodup
  called : ∀ id op res, .effect (some id) op res ∈ history →
    ∃ req, means req op ∧ [.call id req, .effect (some id) op res].Sublist history
  returned : ∀ id out, .ret id out ∈ history →
    ∃ op res, view res = out ∧ [.effect (some id) op res, .ret id out].Sublist history
  realTime : ∀ id out other req op res,
    [.ret id out, .call other req].Sublist history → .effect (some other) op res ∈ history →
      ∃ op' res', [.effect (some id) op' res', .effect (some other) op res].Sublist history

/-- The history of an object that each call reaches at one point between its request and its
return. -/
inductive Atomic (object : Object State Op Res) (means : Req → Op → Prop) (view : Res → Out) :
    List (Moment Id Req Op Res Out) → State → Prop
  | start : Atomic object means view [] object.start
  | call {history : List (Moment Id Req Op Res Out)} {state : State} {id : Id} (req : Req)
      (atomic : Atomic object means view history state)
      (fresh : ∀ other, .call id other ∉ history) :
      Atomic object means view (history ++ [.call id req]) state
  | act {history : List (Moment Id Req Op Res Out)} {state : State} {id : Id} {req : Req} {op : Op}
      (atomic : Atomic object means view history state) (called : .call id req ∈ history)
      (meant : means req op) (fresh : ∀ other res, .effect (some id) other res ∉ history) :
      Atomic object means view (history ++ [.effect (some id) op (object.step state op).2])
        (object.step state op).1
  | other {history : List (Moment Id Req Op Res Out)} {state : State} (op : Op)
      (atomic : Atomic object means view history state) :
      Atomic object means view (history ++ [.effect none op (object.step state op).2])
        (object.step state op).1
  | ret {history : List (Moment Id Req Op Res Out)} {state : State} {id : Id} {op : Op} {res : Res}
      (atomic : Atomic object means view history state)
      (acted : .effect (some id) op res ∈ history) :
      Atomic object means view (history ++ [.ret id (view res)]) state

section Pairs

variable {Item : Type} {first second last : Item} {items : List Item}

/-- A pair in a longer list was there before, or its second item is the new one. -/
theorem pair_concat (there : [first, second].Sublist (items ++ [last])) :
    [first, second].Sublist items ∨ first ∈ items ∧ second = last := by
  rcases List.sublist_append_iff.mp there with ⟨front, back, split, inside, tail⟩
  cases back with
  | nil =>
      rw [List.append_nil] at split
      exact Or.inl (split ▸ inside)
  | cons item back =>
      have alone : back = [] := by
        have short := tail.length_le
        rw [List.length_cons, List.length_singleton] at short
        exact List.eq_nil_of_length_eq_zero (by omega)
      subst alone
      have same : item = last := List.mem_singleton.mp (tail.subset List.mem_cons_self)
      have parts : front = [first] ∧ [item] = [second] :=
        List.append_inj' (split.symm : front ++ [item] = [first] ++ [second]) rfl
      refine Or.inr ⟨?_, ?_⟩
      · rw [parts.1] at inside
        exact List.singleton_sublist.mp inside
      · rw [← same]
        exact (List.singleton_inj.mp parts.2).symm

theorem pair_of_mem (there : first ∈ items) (last : Item) :
    [first, last].Sublist (items ++ [last]) :=
  (List.singleton_sublist.mpr there).append (List.Sublist.refl [last])

theorem Sublist.grow (there : [first, second].Sublist items) (last : Item) :
    [first, second].Sublist (items ++ [last]) :=
  there.trans (List.sublist_append_left items [last])

end Pairs

namespace Atomic

variable {object : Object State Op Res} {means : Req → Op → Prop} {view : Res → Out}
  {history : List (Moment Id Req Op Res Out)} {state : State}

theorem sequential (atomic : Atomic object means view history state) :
    object.replay object.start (history.filterMap Moment.operation) =
      (state, history.filterMap Moment.result) := by
  have quiet : ∀ {history : List (Moment Id Req Op Res Out)} {state : State}
      {moment : Moment Id Req Op Res Out}, moment.operation = none → moment.result = none →
      object.replay object.start (history.filterMap Moment.operation) =
        (state, history.filterMap Moment.result) →
      object.replay object.start ((history ++ [moment]).filterMap Moment.operation) =
        (state, (history ++ [moment]).filterMap Moment.result) := by
    intro history state moment operation result ih
    rw [List.filterMap_append, List.filterMap_append]
    simpa [operation, result] using ih
  have acts : ∀ {history : List (Moment Id Req Op Res Out)} {state : State} (id : Option Id)
      (op : Op), object.replay object.start (history.filterMap Moment.operation) =
        (state, history.filterMap Moment.result) →
      object.replay object.start ((history ++
          [Moment.effect id op (object.step state op).2]).filterMap Moment.operation) =
        ((object.step state op).1, (history ++
          [Moment.effect id op (object.step state op).2]).filterMap Moment.result) := by
    intro history state id op ih
    rw [List.filterMap_append, List.filterMap_append]
    change object.replay object.start (_ ++ [op]) = _
    rw [replay_concat, ih]
    rfl
  induction atomic with
  | start => rfl
  | call req atomic fresh ih => exact quiet rfl rfl ih
  | act atomic called meant fresh ih => exact acts _ _ ih
  | other op atomic ih => exact acts _ _ ih
  | ret atomic acted ih => exact quiet rfl rfl ih

theorem once (atomic : Atomic object means view history state) :
    (history.filterMap Moment.actor).Nodup := by
  have quiet : ∀ {history : List (Moment Id Req Op Res Out)} {last : Moment Id Req Op Res Out},
      last.actor = none → (history.filterMap Moment.actor).Nodup →
      ((history ++ [last]).filterMap Moment.actor).Nodup := by
    intro history last silent ih
    rw [List.filterMap_append]
    simpa [silent] using ih
  induction atomic with
  | start => exact List.nodup_nil
  | call req atomic fresh ih => exact quiet rfl ih
  | @act history state id req op atomic called meant fresh ih =>
      rw [List.filterMap_append]
      refine List.nodup_append.mpr ⟨ih, List.nodup_singleton id, ?_⟩
      intro earlier among later only same
      obtain ⟨moment, member, actor⟩ := List.mem_filterMap.mp among
      rw [same, List.mem_singleton.mp only] at actor
      cases moment with
      | effect actors other res =>
          cases actor
          exact fresh other res member
      | _ => cases actor
  | other op atomic ih => exact quiet rfl ih
  | ret atomic acted ih => exact quiet rfl ih

/-- A call acts after it is made. -/
theorem called (atomic : Atomic object means view history state) {id : Id} {op : Op} {res : Res}
    (acted : .effect (some id) op res ∈ history) :
    ∃ req, means req op ∧ [.call id req, .effect (some id) op res].Sublist history := by
  have grown : ∀ {history : List (Moment Id Req Op Res Out)} {last : Moment Id Req Op Res Out},
      .effect (some id) op res ≠ last →
      (.effect (some id) op res ∈ history →
        ∃ req, means req op ∧ [.call id req, .effect (some id) op res].Sublist history) →
      .effect (some id) op res ∈ history ++ [last] →
      ∃ req, means req op ∧
        [.call id req, .effect (some id) op res].Sublist (history ++ [last]) := by
    intro history last differs ih acted
    rcases List.mem_append.mp acted with old | new
    · obtain ⟨req, meant, there⟩ := ih old
      exact ⟨req, meant, Sublist.grow there last⟩
    · exact absurd (List.mem_singleton.mp new) differs
  induction atomic with
  | start => cases acted
  | call req atomic fresh ih => exact grown (by simp) ih acted
  | @act history state actor req operation atomic called meant fresh ih =>
      rcases List.mem_append.mp acted with old | new
      · obtain ⟨req, meant, there⟩ := ih old
        exact ⟨req, meant, Sublist.grow there _⟩
      · cases List.mem_singleton.mp new
        exact ⟨req, meant, pair_of_mem called _⟩
  | other op atomic ih => exact grown (by simp) ih acted
  | ret atomic earlier ih => exact grown (by simp) ih acted

/-- A call returns after it acted. -/
theorem returned (atomic : Atomic object means view history state) {id : Id} {out : Out}
    (returned : .ret id out ∈ history) :
    ∃ op res, view res = out ∧ [.effect (some id) op res, .ret id out].Sublist history := by
  have grown : ∀ {history : List (Moment Id Req Op Res Out)} {last : Moment Id Req Op Res Out},
      .ret id out ≠ last →
      (.ret id out ∈ history →
        ∃ op res, view res = out ∧ [.effect (some id) op res, .ret id out].Sublist history) →
      .ret id out ∈ history ++ [last] →
      ∃ op res, view res = out ∧
        [.effect (some id) op res, .ret id out].Sublist (history ++ [last]) := by
    intro history last differs ih returned
    rcases List.mem_append.mp returned with old | new
    · obtain ⟨op, res, shown, there⟩ := ih old
      exact ⟨op, res, shown, Sublist.grow there last⟩
    · exact absurd (List.mem_singleton.mp new) differs
  induction atomic with
  | start => cases returned
  | call req atomic fresh ih => exact grown (by simp) ih returned
  | act atomic called meant fresh ih => exact grown (by simp) ih returned
  | other op atomic ih => exact grown (by simp) ih returned
  | @ret history state actor op res atomic acted ih =>
      rcases List.mem_append.mp returned with old | new
      · obtain ⟨op, res, shown, there⟩ := ih old
        exact ⟨op, res, shown, Sublist.grow there _⟩
      · cases List.mem_singleton.mp new
        exact ⟨op, res, rfl, pair_of_mem acted _⟩

/-- The points of the calls stand in the order of the calls that do not overlap. -/
theorem realTime (atomic : Atomic object means view history state) {id other : Id} {out : Out}
    {req : Req} {op : Op} {res : Res} (apart : [.ret id out, .call other req].Sublist history)
    (acted : .effect (some other) op res ∈ history) :
    ∃ op' res', [.effect (some id) op' res', .effect (some other) op res].Sublist history := by
  have grown : ∀ {history : List (Moment Id Req Op Res Out)} {last : Moment Id Req Op Res Out},
      .call other req ≠ last → .effect (some other) op res ≠ last →
      ([.ret id out, .call other req].Sublist history → .effect (some other) op res ∈ history →
        ∃ op' res', [.effect (some id) op' res', .effect (some other) op res].Sublist history) →
      [.ret id out, .call other req].Sublist (history ++ [last]) →
      .effect (some other) op res ∈ history ++ [last] →
      ∃ op' res',
        [.effect (some id) op' res', .effect (some other) op res].Sublist (history ++ [last]) := by
    intro history last called acts ih apart acted
    rcases pair_concat apart with before | ⟨_, same⟩
    · rcases List.mem_append.mp acted with old | new
      · obtain ⟨op', res', there⟩ := ih before old
        exact ⟨op', res', Sublist.grow there last⟩
      · exact absurd (List.mem_singleton.mp new) acts
    · exact absurd same called
  induction atomic with
  | start => cases acted
  | @call history state caller request atomic fresh ih =>
      by_cases same : (Moment.call other req : Moment Id Req Op Res Out) =
        Moment.call caller request
      · -- the call is the last moment, so that it has not acted
        cases same
        rcases List.mem_append.mp acted with old | new
        · obtain ⟨earlier, _, there⟩ := atomic.called old
          exact absurd (there.subset List.mem_cons_self) (fresh earlier)
        · cases List.mem_singleton.mp new
      · exact grown same (by simp) ih apart acted
  | @act history state actor request operation atomic called meant fresh ih =>
      by_cases same : Moment.effect (some other) op res =
        (Moment.effect (some actor) operation (object.step state operation).2 :
          Moment Id Req Op Res Out)
      · rcases pair_concat apart with before | ⟨_, last⟩
        · obtain ⟨op', res', _, there⟩ := atomic.returned (before.subset List.mem_cons_self)
          rw [same]
          exact ⟨op', res', pair_of_mem (there.subset List.mem_cons_self) _⟩
        · cases last
      · exact grown (by simp) same ih apart acted
  | other op atomic ih => exact grown (by simp) (by simp) ih apart acted
  | ret atomic earlier ih => exact grown (by simp) (by simp) ih apart acted

/-- Calls return that have acted. -/
theorem rets (atomic : Atomic object means view history state)
    {moments : List (Moment Id Req Op Res Out)}
    (acted : ∀ moment ∈ moments, ∃ id op res,
      .effect (some id) op res ∈ history ∧ moment = .ret id (view res)) :
    Atomic object means view (history ++ moments) state := by
  induction moments generalizing history with
  | nil =>
      rw [List.append_nil]
      exact atomic
  | cons moment moments ih =>
      obtain ⟨id, op, res, there, rfl⟩ := acted moment List.mem_cons_self
      have first := Atomic.ret atomic there
      have rest := ih first fun moment member => by
        obtain ⟨id, op, res, there, same⟩ := acted moment (List.mem_cons_of_mem _ member)
        exact ⟨id, op, res, List.mem_append_left _ there, same⟩
      rwa [List.append_assoc] at rest

/-- An object that is reached at single points is linearizable. -/
theorem linearizable (atomic : Atomic object means view history state) :
    Linearizable object means view history state :=
  ⟨atomic.sequential, atomic.once, fun _ _ _ acted => atomic.called acted,
    fun _ _ returned => atomic.returned returned,
    fun _ _ _ _ _ _ apart acted => atomic.realTime apart acted⟩

end Atomic

end Histories

end Linear
