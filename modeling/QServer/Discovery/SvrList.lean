import QServer.Lib.OrderedSet
import QServer.Lib.ProtoCodec
import Mathlib.Data.Finset.Filter
import Mathlib.Data.Finset.Insert

/-
This file models the server list of `app/common/svr_list.h` and `svr_list.cpp`.
-/

namespace QServer
open Container Wire

structure SvrList where
  svrByType : UnorderedMap Bytes (List Bytes)
  svrSet : Finset Bytes

namespace SvrList

/-- The character '-'. -/
def dash : UInt8 := 45

/-- The type is the part before the first dash, and empty without one. -/
def getType (svrId : Bytes) : Bytes :=
  if dash ∈ svrId then svrId.takeWhile (· ≠ dash) else []

def empty : SvrList := ⟨∅, ∅⟩

/-- Both containers are cleared. -/
def clear (_ : SvrList) : SvrList := empty

variable (svrList : SvrList)

/-- An absent list is `nullptr`. -/
def getSvrListByType (type : Bytes) : Option (List Bytes) := svrList.svrByType.lookup type

/-- The `operator[]` of the map makes an empty list for a new type. -/
def addSvr (svrId : Bytes) : SvrList :=
  if svrId ∈ svrList.svrSet then svrList
  else
    let type := getType svrId
    if type = [] then svrList
    else
      { svrByType :=
          Finmap.insert type ((svrList.getSvrListByType type).getD [] ++ [svrId]) svrList.svrByType
        svrSet := insert svrId svrList.svrSet }

/-- The servers of the type, with an absent list as an empty one. -/
def svrsOf (type : Bytes) : List Bytes := (svrList.getSvrListByType type).getD []

/-- The lists hold each server of the set once, under its type, and no server without a type. -/
structure Consistent (svrList : SvrList) : Prop where
  listed : ∀ type svrId, svrId ∈ svrList.svrsOf type ↔
    svrId ∈ svrList.svrSet ∧ getType svrId = type
  once : ∀ type, (svrList.svrsOf type).Nodup
  typed : ∀ svrId ∈ svrList.svrSet, getType svrId ≠ []

/-- The names that `AddSvr` takes. -/
def typedNames (names : Finset Bytes) : Finset Bytes := names.filter fun name => getType name ≠ []

/-- The list contains exactly the names with a type. -/
def Holds (svrList : SvrList) (names : Finset Bytes) : Prop :=
  svrList.Consistent ∧ svrList.svrSet = typedNames names

variable {svrList}

theorem Holds.clear (svrList : SvrList) : svrList.clear.Holds ∅ := by
  refine ⟨⟨fun type svrId => ?_, fun type => ?_, fun svrId member => ?_⟩, rfl⟩
  · simp [SvrList.clear, empty, svrsOf, getSvrListByType]
  · simp [SvrList.clear, empty, svrsOf, getSvrListByType]
  · simp [SvrList.clear, empty] at member

theorem addSvr_of_known {svrId : Bytes} (known : svrId ∈ svrList.svrSet) :
    svrList.addSvr svrId = svrList :=
  if_pos known

theorem addSvr_of_untyped {svrId : Bytes} (untyped : getType svrId = []) :
    svrList.addSvr svrId = svrList := by
  simp [addSvr, untyped]

theorem addSvr_svrSet (svrId : Bytes) :
    (svrList.addSvr svrId).svrSet =
      if getType svrId = [] then svrList.svrSet else insert svrId svrList.svrSet := by
  split_ifs with untyped
  · rw [addSvr_of_untyped untyped]
  · by_cases known : svrId ∈ svrList.svrSet
    · rw [addSvr_of_known known, Finset.insert_eq_of_mem known]
    · simp [addSvr, known, untyped]

/-- A new server with a type comes to the end of the list of its type. -/
theorem addSvr_svrsOf {svrId : Bytes} (fresh : svrId ∉ svrList.svrSet)
    (typed : getType svrId ≠ []) (type : Bytes) :
    (svrList.addSvr svrId).svrsOf type =
      if type = getType svrId then svrList.svrsOf type ++ [svrId] else svrList.svrsOf type := by
  rw [addSvr, if_neg fresh]
  dsimp only
  rw [if_neg typed, svrsOf, getSvrListByType]
  dsimp only
  rw [UnorderedMap.lookup_insert]
  split_ifs with here
  · rw [here]
    rfl
  · rfl

theorem Consistent.addNew (consistent : svrList.Consistent) {svrId : Bytes}
    (fresh : svrId ∉ svrList.svrSet) (typed : getType svrId ≠ []) :
    (svrList.addSvr svrId).Consistent := by
  have lists := addSvr_svrsOf fresh typed
  have set : (svrList.addSvr svrId).svrSet = insert svrId svrList.svrSet := by
    rw [addSvr_svrSet, if_neg typed]
  have absent : ∀ type, svrId ∉ svrList.svrsOf type := fun type member =>
    fresh ((consistent.listed type svrId).mp member).1
  constructor
  · intro type other
    rw [lists, set, Finset.mem_insert]
    split_ifs with here
    · rw [List.mem_append, List.mem_singleton, consistent.listed]
      constructor
      · rintro (old | rfl)
        · exact ⟨Or.inr old.1, old.2⟩
        · exact ⟨Or.inl rfl, here.symm⟩
      · rintro ⟨rfl | old, same⟩
        · exact Or.inr rfl
        · exact Or.inl ⟨old, same⟩
    · rw [consistent.listed]
      constructor
      · rintro ⟨old, same⟩
        exact ⟨Or.inr old, same⟩
      · rintro ⟨rfl | old, same⟩
        · exact absurd same.symm here
        · exact ⟨old, same⟩
  · intro type
    rw [lists]
    split_ifs with here
    · refine List.nodup_append.mpr ⟨consistent.once type, List.nodup_singleton _, ?_⟩
      intro old member other single
      rw [List.mem_singleton.mp single]
      rintro rfl
      exact absent type member
    · exact consistent.once type
  · intro other member
    rw [set, Finset.mem_insert] at member
    rcases member with rfl | old
    · exact typed
    · exact consistent.typed other old

theorem Consistent.addSvr (consistent : svrList.Consistent) (svrId : Bytes) :
    (svrList.addSvr svrId).Consistent := by
  by_cases known : svrId ∈ svrList.svrSet
  · rw [addSvr_of_known known]
    exact consistent
  · by_cases untyped : getType svrId = []
    · rw [addSvr_of_untyped untyped]
      exact consistent
    · exact consistent.addNew known untyped

theorem typedNames_insert (name : Bytes) (names : Finset Bytes) :
    typedNames (insert name names) =
      if getType name = [] then typedNames names else insert name (typedNames names) := by
  rw [typedNames, Finset.filter_insert]
  by_cases untyped : getType name = []
  · rw [if_neg (not_not.mpr untyped), if_pos untyped]
    rfl
  · rw [if_pos untyped, if_neg untyped]
    rfl

/-- One more name is one more server, or none. -/
theorem Holds.addSvr {names : Finset Bytes} (holds : svrList.Holds names) (name : Bytes) :
    (svrList.addSvr name).Holds (insert name names) := by
  refine ⟨holds.1.addSvr name, ?_⟩
  rw [addSvr_svrSet, typedNames_insert, holds.2]

theorem Holds.addAll {names : Finset Bytes} (holds : svrList.Holds names) (root : List Bytes) :
    (root.foldl SvrList.addSvr svrList).Holds (names ∪ root.toFinset) := by
  induction root generalizing svrList names with
  | nil => simpa using holds
  | cons name rest ih =>
      have added := ih (holds.addSvr name)
      rwa [List.foldl_cons, List.toFinset_cons, Finset.union_insert, ← Finset.insert_union]

/-- A list depends on the names with a type only. -/
theorem Holds.of_typedNames {names others : Finset Bytes} (holds : svrList.Holds names)
    (same : typedNames names = typedNames others) : svrList.Holds others :=
  ⟨holds.1, holds.2.trans same⟩

end SvrList

end QServer
