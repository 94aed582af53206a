import QServer.Discovery.SvrList
import QServer.Lib.Register
import Mathlib.Algebra.Ring.Int.Defs
import Mathlib.Data.Finset.Card

/-
This file models the removals from the server list and `GetOneSvrByType` of
`app/common/svr_comm_trans.cpp`.
-/

namespace QServer
open Container RegisterAct Wire

namespace SvrList

variable (svrList : SvrList)

/-- Only the first place of the server in its list is erased. -/
def removeSvr (svrId : Bytes) : SvrList :=
  if svrId ∉ svrList.svrSet then svrList
  else
    match svrList.getSvrListByType (getType svrId) with
    | none => svrList
    | some list =>
        { svrByType := Finmap.insert (getType svrId) (list.erase svrId) svrList.svrByType
          svrSet := svrList.svrSet.erase svrId }

def perform : RegisterAct Bytes → SvrList
  | .add svrId => svrList.addSvr svrId
  | .remove svrId => svrList.removeSvr svrId
  | .clear => svrList.clear

/-- The server list after the calls. -/
def run (acts : List (RegisterAct Bytes)) : SvrList := acts.foldl perform empty

/-- A remainder by zero has no value. -/
def randOne (rand max : Int) : Option Int := if max = 0 then none else some (rand.tmod max)

/-- The size becomes an `int` and the index a `size_t`; `at` fails beyond the end. -/
def getOneSvrByType (type : Bytes) (rand : Int) : Option Bytes :=
  match svrList.getSvrListByType type with
  | none => some []
  | some svrs =>
      if svrs = [] then some []
      else
        (randOne rand (Int.bmod svrs.length (2 ^ 32))).bind fun index =>
          svrs[(index % 2 ^ 64).toNat]?

/-- The servers that `AddSvr` takes. -/
def Typed (svrId : Bytes) : Prop := getType svrId ≠ []

instance : DecidablePred Typed := fun svrId => inferInstanceAs (Decidable (getType svrId ≠ []))

/-- Both containers hold the names, the lists in their order. -/
structure Holding (svrList : SvrList) (names : List Bytes) : Prop where
  set : svrList.svrSet = names.toFinset
  lists : ∀ type, svrList.svrsOf type = names.filter fun name => getType name = type
  typed : ∀ name ∈ names, Typed name
  once : names.Nodup

variable {svrList}

theorem removeSvr_of_unknown {svrId : Bytes} (unknown : svrId ∉ svrList.svrSet) :
    svrList.removeSvr svrId = svrList :=
  if_pos unknown

namespace Holding

variable {names : List Bytes} (holding : svrList.Holding names)
include holding

theorem mem_set {svrId : Bytes} : svrId ∈ svrList.svrSet ↔ svrId ∈ names := by
  rw [holding.set, List.mem_toFinset]

theorem addSvr (svrId : Bytes) :
    (svrList.addSvr svrId).Holding (RegisterAct.perform Typed names (.add svrId)) := by
  rw [RegisterAct.perform]
  split_ifs with comes
  · have fresh : svrId ∉ svrList.svrSet := fun known => comes.2 (holding.mem_set.mp known)
    constructor
    · rw [addSvr_svrSet, if_neg comes.1, holding.set, List.toFinset_append]
      simp
    · intro type
      rw [addSvr_svrsOf fresh comes.1, holding.lists, List.filter_append]
      split_ifs with here
      · simp [here]
      · simp [Ne.symm here]
    · intro name member
      rcases List.mem_append.mp member with old | new
      · exact holding.typed name old
      · rw [List.mem_singleton.mp new]
        exact comes.1
    · exact List.nodup_append.mpr ⟨holding.once, List.nodup_singleton _, by
        rintro old member new single rfl
        exact comes.2 (List.mem_singleton.mp single ▸ member)⟩
  · have same : svrList.addSvr svrId = svrList := by
      by_cases known : svrId ∈ svrList.svrSet
      · exact addSvr_of_known known
      · apply addSvr_of_untyped
        by_contra typed
        exact comes ⟨typed, fun member => known (holding.mem_set.mpr member)⟩
    rwa [same]

/-- The early return without a list of the type is not reached. -/
theorem list_of_known {svrId : Bytes} (known : svrId ∈ svrList.svrSet) :
    svrList.getSvrListByType (getType svrId) =
      some (names.filter fun name => getType name = getType svrId) := by
  have lists := holding.lists (getType svrId)
  rw [svrsOf] at lists
  cases found : svrList.getSvrListByType (getType svrId) with
  | some list =>
      rw [found, Option.getD_some] at lists
      rw [lists]
  | none =>
      have member : svrId ∈ names.filter fun name => getType name = getType svrId :=
        List.mem_filter.mpr ⟨holding.mem_set.mp known, by simp⟩
      rw [← lists, found, Option.getD_none] at member
      exact absurd member List.not_mem_nil

/-- The type of the server loses it, and the other types do not hold it. -/
theorem filter_ne (svrId type : Bytes) :
    (names.filter fun name => name ≠ svrId).filter (fun name => getType name = type) =
      if type = getType svrId then (names.filter fun name => getType name = type).erase svrId
      else names.filter fun name => getType name = type := by
  split_ifs with here
  · rw [(holding.once.filter _).erase_eq_filter, List.filter_comm]
    apply List.filter_congr
    intro name _
    rw [decide_not, bne, beq_eq_decide]
  · rw [List.filter_filter]
    apply List.filter_congr
    intro name _
    by_cases same : getType name = type
    · have other : name ≠ svrId := by
        rintro rfl
        exact here same.symm
      simp [same, other]
    · simp [same]

theorem removeSvr (svrId : Bytes) :
    (svrList.removeSvr svrId).Holding (RegisterAct.perform Typed names (.remove svrId)) := by
  rw [RegisterAct.perform]
  by_cases known : svrId ∈ svrList.svrSet
  · have removed : svrList.removeSvr svrId =
        { svrByType := Finmap.insert (getType svrId)
            ((names.filter fun name => getType name = getType svrId).erase svrId) svrList.svrByType
          svrSet := svrList.svrSet.erase svrId } := by
      rw [SvrList.removeSvr, if_neg (not_not.mpr known), holding.list_of_known known]
    rw [removed]
    constructor
    · dsimp only
      rw [holding.set]
      ext name
      simp [and_comm]
    · intro type
      rw [holding.filter_ne, svrsOf, getSvrListByType]
      dsimp only
      rw [UnorderedMap.lookup_insert]
      split_ifs with here
      · rw [here, Option.getD_some]
      · exact holding.lists type
    · intro name member
      exact holding.typed name (List.mem_of_mem_filter member)
    · exact holding.once.filter _
  · rw [removeSvr_of_unknown known, List.filter_eq_self.mpr]
    · exact holding
    · intro name member
      rw [decide_eq_true_eq]
      rintro rfl
      exact known (holding.mem_set.mpr member)

end Holding

theorem Holding.empty : SvrList.empty.Holding [] := by
  constructor
  · rfl
  · intro type
    simp [SvrList.empty, svrsOf, getSvrListByType]
  · simp
  · exact List.nodup_nil

theorem Holding.perform {names : List Bytes} (holding : svrList.Holding names)
    (act : RegisterAct Bytes) :
    (svrList.perform act).Holding (RegisterAct.perform Typed names act) := by
  cases act with
  | add svrId => exact holding.addSvr svrId
  | remove svrId => exact holding.removeSvr svrId
  | clear => exact Holding.empty

/-- The two containers hold the register of the typed names. -/
theorem run_holding (acts : List (RegisterAct Bytes)) :
    (run acts).Holding (RegisterAct.names Typed acts) := by
  induction acts using List.reverseRecOn with
  | nil => exact Holding.empty
  | append_singleton acts act ih =>
      rw [names_snoc, run, List.foldl_append, List.foldl_cons, List.foldl_nil]
      exact ih.perform act

/-- An index below the size of a list that fits an `int` is in range. -/
theorem randOne_index {svrs : List Bytes} (some_svr : svrs ≠ []) (small : svrs.length < 2 ^ 31)
    {rand : Int} (positive : 0 ≤ rand) :
    ∃ index, randOne rand (Int.bmod svrs.length (2 ^ 32)) = some index ∧
      ∃ svr ∈ svrs, svrs[(index % 2 ^ 64).toNat]? = some svr := by
  have length := List.length_pos_iff.mpr some_svr
  have size : Int.bmod svrs.length (2 ^ 32) = svrs.length :=
    Int.bmod_eq_of_le (by omega) (by omega)
  rw [size, randOne, if_neg (by omega)]
  refine ⟨_, rfl, ?_⟩
  rw [Int.tmod_eq_emod_of_nonneg positive]
  have nonneg := Int.emod_nonneg rand (b := svrs.length) (by omega)
  have inside := Int.emod_lt_of_pos rand (b := svrs.length) (by omega)
  have range : ((rand % svrs.length) % 2 ^ 64).toNat < svrs.length := by
    rw [Int.emod_eq_of_lt nonneg (by omega)]
    omega
  exact ⟨_, List.getElem_mem range, List.getElem?_eq_getElem range⟩

theorem Holding.getOneSvrByType {names : List Bytes} (holding : svrList.Holding names)
    (small : svrList.svrSet.card < 2 ^ 31) (type : Bytes) {rand : Int} (positive : 0 ≤ rand) :
    ∃ svr, svrList.getOneSvrByType type rand = some svr ∧
      (svr = [] ∨ svr ∈ svrList.svrSet ∧ getType svr = type) := by
  have lists := holding.lists type
  rw [svrsOf] at lists
  rw [SvrList.getOneSvrByType]
  cases found : svrList.getSvrListByType type with
  | none => exact ⟨[], rfl, Or.inl rfl⟩
  | some svrs =>
      rw [found, Option.getD_some] at lists
      dsimp only
      split_ifs with none
      · exact ⟨[], rfl, Or.inl rfl⟩
      · have short : svrs.length < 2 ^ 31 := by
          apply lt_of_le_of_lt _ small
          rw [holding.set, List.toFinset_card_of_nodup holding.once, lists]
          exact List.length_filter_le _ _
        obtain ⟨index, taken, svr, member, found⟩ := randOne_index none short positive
        refine ⟨svr, by rw [taken, Option.bind_some, found], Or.inr ?_⟩
        rw [lists, List.mem_filter, decide_eq_true_eq] at member
        exact ⟨holding.mem_set.mpr member.1, member.2⟩

/-- The server list says which servers were added, in which order, and picks among them. -/
structure Registry (svrList : SvrList) (acts : List (RegisterAct Bytes)) : Prop where
  members : ∀ svrId, svrId ∈ svrList.svrSet ↔ Kept acts svrId ∧ getType svrId ≠ []
  listed : ∀ type svrId, svrId ∈ svrList.svrsOf type ↔
    svrId ∈ svrList.svrSet ∧ getType svrId = type
  once : ∀ type, (svrList.svrsOf type).Nodup
  ordered : ∀ type, (svrList.svrsOf type).Pairwise (Earlier Typed acts)
  picks : svrList.svrSet.card < 2 ^ 31 → ∀ type rand, 0 ≤ rand →
    ∃ svr, svrList.getOneSvrByType type rand = some svr ∧
      (svr = [] ∨ svr ∈ svrList.svrSet ∧ getType svr = type)

/-- After any calls the server list is the registry of the servers that they leave. -/
theorem run_registry (acts : List (RegisterAct Bytes)) : (run acts).Registry acts := by
  have holding := run_holding acts
  constructor
  · intro svrId
    rw [holding.mem_set, mem_names]
    rfl
  · intro type svrId
    rw [holding.lists, List.mem_filter, decide_eq_true_eq, holding.mem_set]
  · intro type
    rw [holding.lists]
    exact holding.once.filter _
  · intro type
    rw [holding.lists]
    exact (names_ordered acts).filter _
  · intro small type rand positive
    exact holding.getOneSvrByType small type positive

/-- The servers "a-1", "b-1" and "a-2" join, "a-1" leaves, and then it joins again. -/
def rejoinActs : List (RegisterAct Bytes) :=
  [.add [97, 45, 49], .add [98, 45, 49], .add [97, 45, 50], .remove [97, 45, 49],
    .add [97, 45, 49]]

theorem run_registry_rejoin : (run rejoinActs).svrsOf [97] = [[97, 45, 50], [97, 45, 49]] ∧
    (run rejoinActs).Registry rejoinActs :=
  ⟨by decide +kernel, run_registry rejoinActs⟩

end SvrList

end QServer
