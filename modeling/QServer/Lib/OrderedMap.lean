import Mathlib.Data.List.Sort
import Mathlib.Order.Defs.LinearOrder
import Mathlib.Tactic.Common

namespace Container

variable {κ ν : Type} [LinearOrder κ]

/-- An assignment keeps the place of a key that is there. -/
def assign (key : κ) (value : ν) : List (κ × ν) → List (κ × ν)
  | [] => [(key, value)]
  | head :: rest =>
      if key < head.1 then (key, value) :: head :: rest
      else if key = head.1 then (key, value) :: rest
      else head :: assign key value rest

theorem mem_assign {key : κ} {value : ν} {entries : List (κ × ν)}
    (sorted : entries.Pairwise fun a b => a.1 < b.1) {entry : κ × ν} :
    entry ∈ assign key value entries ↔ entry = (key, value) ∨ entry ∈ entries ∧ entry.1 ≠ key := by
  induction entries with
  | nil => simp [assign]
  | cons head rest ih =>
      have above : ∀ other ∈ rest, head.1 < other.1 := fun other member =>
        List.rel_of_pairwise_cons sorted member
      rw [assign]
      split_ifs with below same
      · have others : ∀ other ∈ head :: rest, other.1 ≠ key := by
          intro other member
          rcases List.mem_cons.mp member with rfl | later
          · exact below.ne'
          · exact (below.trans (above other later)).ne'
        rw [List.mem_cons]
        exact or_congr_right ⟨fun member => ⟨member, others entry member⟩, fun both => both.1⟩
      · have others : ∀ other ∈ rest, other.1 ≠ key := fun other member =>
          same ▸ (above other member).ne'
        rw [List.mem_cons, List.mem_cons]
        apply or_congr_right
        constructor
        · intro member
          exact ⟨Or.inr member, others entry member⟩
        · rintro ⟨rfl | later, different⟩
          · exact absurd same.symm different
          · exact later
      · rw [List.mem_cons, ih sorted.of_cons, List.mem_cons]
        constructor
        · rintro (rfl | new | ⟨later, different⟩)
          · exact Or.inr ⟨Or.inl rfl, Ne.symm same⟩
          · exact Or.inl new
          · exact Or.inr ⟨Or.inr later, different⟩
        · rintro (new | ⟨rfl | later, different⟩)
          · exact Or.inr (Or.inl new)
          · exact Or.inl rfl
          · exact Or.inr (Or.inr ⟨later, different⟩)

theorem assign_sorted {key : κ} {value : ν} {entries : List (κ × ν)}
    (sorted : entries.Pairwise fun a b => a.1 < b.1) :
    (assign key value entries).Pairwise fun a b => a.1 < b.1 := by
  induction entries with
  | nil => simp [assign]
  | cons head rest ih =>
      have above : ∀ other ∈ rest, head.1 < other.1 := fun other member =>
        List.rel_of_pairwise_cons sorted member
      rw [assign]
      split_ifs with below same
      · refine List.pairwise_cons.mpr ⟨fun other member => ?_, sorted⟩
        rcases List.mem_cons.mp member with rfl | later
        · exact below
        · exact below.trans (above other later)
      · exact List.pairwise_cons.mpr ⟨fun other member => same ▸ above other member, sorted.of_cons⟩
      · refine List.pairwise_cons.mpr ⟨fun other member => ?_, ih sorted.of_cons⟩
        rcases (mem_assign sorted.of_cons).mp member with rfl | ⟨later, _⟩
        · exact lt_of_le_of_ne (not_lt.mp below) (Ne.symm same)
        · exact above other later

/-- An ordered map keeps its entries in the strict order of their keys. -/
structure OrderedMap (κ ν : Type) [LinearOrder κ] where
  entries : List (κ × ν)
  sorted : entries.Pairwise fun a b => a.1 < b.1

namespace OrderedMap

def empty : OrderedMap κ ν := ⟨[], List.Pairwise.nil⟩

def assign (map : OrderedMap κ ν) (key : κ) (value : ν) : OrderedMap κ ν :=
  ⟨Container.assign key value map.entries, assign_sorted map.sorted⟩

def erase (map : OrderedMap κ ν) (key : κ) : OrderedMap κ ν :=
  ⟨map.entries.filter fun entry => entry.1 ≠ key, map.sorted.sublist List.filter_sublist⟩

variable (map : OrderedMap κ ν)

/-- The first entry whose key is not below the query. -/
def lowerBound (query : κ) : Option (κ × ν) := map.entries.find? fun entry => query ≤ entry.1

/-- The entry with the greatest key. -/
def last : Option (κ × ν) := map.entries.getLast?

variable {map} {key query : κ} {value : ν} {entry : κ × ν}

@[simp] theorem mem_empty : entry ∉ (empty : OrderedMap κ ν).entries := List.not_mem_nil

theorem mem_assign : entry ∈ (map.assign key value).entries ↔
    entry = (key, value) ∨ entry ∈ map.entries ∧ entry.1 ≠ key :=
  Container.mem_assign map.sorted

theorem mem_erase : entry ∈ (map.erase key).entries ↔ entry ∈ map.entries ∧ entry.1 ≠ key := by
  rw [erase, List.mem_filter, decide_eq_true_iff]

/-- A key has one entry. -/
theorem eq_of_key {other : κ × ν} (member : entry ∈ map.entries) (inside : other ∈ map.entries)
    (same : entry.1 = other.1) : entry = other := by
  have keys : (map.entries.map Prod.fst).Nodup :=
    List.pairwise_map.mpr (map.sorted.imp fun less => less.ne)
  exact List.inj_on_of_nodup_map keys member inside same

/-- Maps with the same entries are equal. -/
theorem ext_mem {other : OrderedMap κ ν}
    (same : ∀ entry, entry ∈ map.entries ↔ entry ∈ other.entries) : map = other := by
  obtain ⟨first, firstSorted⟩ := map
  obtain ⟨second, secondSorted⟩ := other
  have nodup : ∀ {entries : List (κ × ν)}, entries.Pairwise (fun a b => a.1 < b.1) →
      entries.Nodup := fun sorted => sorted.imp fun less clash => less.ne (congrArg Prod.fst clash)
  have perm : first.Perm second :=
    (List.perm_ext_iff_of_nodup (nodup firstSorted) (nodup secondSorted)).mpr same
  have equal : first = second :=
    perm.eq_of_pairwise (fun _ _ _ _ below above => absurd below above.not_gt) firstSorted
      secondSorted
  subst equal
  rfl

theorem lowerBound_eq_some (found : map.lowerBound query = some entry) :
    entry ∈ map.entries ∧ query ≤ entry.1 ∧
      ∀ other ∈ map.entries, query ≤ other.1 → entry.1 ≤ other.1 := by
  obtain ⟨entries, sorted⟩ := map
  change entries.find? _ = some entry at found
  induction entries with
  | nil => cases found
  | cons head rest ih =>
      rw [List.find?_cons] at found
      split at found
      · rename_i reached
        cases found
        refine ⟨List.mem_cons_self, of_decide_eq_true reached, fun other member _ => ?_⟩
        rcases List.mem_cons.mp member with rfl | later
        · exact le_refl _
        · exact (List.rel_of_pairwise_cons sorted later).le
      · rename_i missed
        obtain ⟨member, reached, least⟩ := ih sorted.of_cons found
        refine ⟨List.mem_cons_of_mem _ member, reached, fun other inside above => ?_⟩
        rcases List.mem_cons.mp inside with rfl | later
        · exact absurd above (of_decide_eq_false missed)
        · exact least other later above

theorem lowerBound_eq_none (missed : map.lowerBound query = none) :
    ∀ other ∈ map.entries, other.1 < query := by
  intro other member
  have below := List.find?_eq_none.mp missed other member
  simpa using below

theorem last_eq_some (found : map.last = some entry) :
    entry ∈ map.entries ∧ ∀ other ∈ map.entries, other.1 ≤ entry.1 := by
  obtain ⟨entries, sorted⟩ := map
  obtain ⟨front, rfl⟩ := List.getLast?_eq_some_iff.mp found
  refine ⟨by simp, fun other member => ?_⟩
  rcases List.mem_append.mp member with before | same
  · exact ((List.pairwise_append.mp sorted).2.2 other before entry (by simp)).le
  · rw [List.mem_singleton.mp same]

section Search

/-- A search takes the lower bound of the query, or the last entry without one. -/
def search (map : OrderedMap κ ν) (query : κ) : Option (κ × ν) :=
  (map.lowerBound query).or map.last

/-- A search at the query finds the first key rather than the second one. -/
def Prefers (query first second : κ) : Prop :=
  query ≤ first ∧ (query ≤ second → first ≤ second) ∨ first < query ∧ second ≤ first

theorem Prefers.antisymm {first second : κ} (there : Prefers query first second)
    (back : Prefers query second first) : first = second := by
  rcases there with ⟨above, least⟩ | ⟨below, greatest⟩
  · rcases back with ⟨above', least'⟩ | ⟨below', greatest'⟩
    · exact le_antisymm (least above') (least' above)
    · exact absurd (above.trans greatest') below'.not_ge
  · rcases back with ⟨above', least'⟩ | ⟨below', greatest'⟩
    · exact absurd (above'.trans greatest) below.not_ge
    · exact le_antisymm greatest' greatest

/-- The search finds the entry that it prefers to all others. -/
theorem search_eq_some (found : map.search query = some entry) :
    entry ∈ map.entries ∧ ∀ other ∈ map.entries, Prefers query entry.1 other.1 := by
  rw [search] at found
  cases bound : map.lowerBound query with
  | some first =>
      rw [bound, Option.some_or] at found
      cases found
      obtain ⟨member, reached, least⟩ := lowerBound_eq_some bound
      exact ⟨member, fun other inside => Or.inl ⟨reached, least other inside⟩⟩
  | none =>
      rw [bound, Option.none_or] at found
      have below := lowerBound_eq_none bound
      obtain ⟨member, greatest⟩ := last_eq_some found
      exact ⟨member, fun other inside => Or.inr ⟨below entry member, greatest other inside⟩⟩

theorem search_isSome (query : κ) : (map.search query).isSome = true ↔ map.entries ≠ [] := by
  constructor
  · intro found empty
    obtain ⟨entry, found⟩ := Option.isSome_iff_exists.mp found
    have member := (search_eq_some found).1
    rw [empty] at member
    cases member
  · intro stocked
    have ends : map.last.isSome = true := by rwa [last, List.getLast?_isSome]
    rw [search, Option.isSome_or, ends, Bool.or_true]

/-- An entry that the search prefers to all others is found. -/
theorem search_of_prefers (member : entry ∈ map.entries)
    (preferred : ∀ other ∈ map.entries, Prefers query entry.1 other.1) :
    map.search query = some entry := by
  obtain ⟨other, found⟩ := Option.isSome_iff_exists.mp
    ((search_isSome query).mpr (List.ne_nil_of_mem member))
  obtain ⟨inside, best⟩ := search_eq_some found
  have same := (preferred other inside).antisymm (best entry member)
  rw [found, eq_of_key member inside same]

/-- An assignment moves a search to the assigned key, or not at all. -/
theorem search_assign (map : OrderedMap κ ν) (key query : κ) (value : ν) :
    (map.assign key value).search query = some (key, value) ∨
      (map.assign key value).search query = map.search query := by
  have stocked : (map.assign key value).entries ≠ [] :=
    List.ne_nil_of_mem (mem_assign.mpr (Or.inl rfl))
  obtain ⟨entry, found⟩ := Option.isSome_iff_exists.mp ((search_isSome query).mpr stocked)
  obtain ⟨member, best⟩ := search_eq_some found
  rcases mem_assign.mp member with rfl | ⟨old, _⟩
  · exact Or.inl found
  · refine Or.inr (found.trans (search_of_prefers old fun other inside => ?_).symm)
    by_cases replaced : other.1 = key
    · rw [replaced]
      exact best (key, value) (mem_assign.mpr (Or.inl rfl))
    · exact best other (mem_assign.mpr (Or.inr ⟨inside, replaced⟩))

end Search

end OrderedMap

end Container
