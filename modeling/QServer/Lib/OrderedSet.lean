import Mathlib.Data.Finmap
import Mathlib.Data.List.Nodup
import Mathlib.Data.List.Perm.Subperm
import Mathlib.Order.Defs.LinearOrder
import Mathlib.Tactic.Common

namespace Container

variable {α κ : Type} [LinearOrder κ] {key : α → κ}

/-- The insertion of an ordered set leaves the list alone when the key is there. -/
def place (key : α → κ) (item : α) : List α → List α
  | [] => [item]
  | head :: rest =>
      if key item < key head then item :: head :: rest
      else if key item = key head then head :: rest
      else head :: place key item rest

theorem mem_place {item other : α} {items : List α} (member : other ∈ place key item items) :
    other = item ∨ other ∈ items := by
  induction items with
  | nil => simpa [place] using member
  | cons head rest ih =>
      rw [place] at member
      split_ifs at member with below same
      · simpa using member
      · exact Or.inr member
      · rcases List.mem_cons.mp member with first | later
        · exact Or.inr (by simp [first])
        · rcases ih later with new | old
          · exact Or.inl new
          · exact Or.inr (by simp [old])

theorem place_sorted {item : α} {items : List α}
    (sorted : items.Pairwise fun a b => key a < key b) :
    (place key item items).Pairwise fun a b => key a < key b := by
  induction items with
  | nil => simp [place]
  | cons head rest ih =>
      have above : ∀ {other}, other ∈ rest → key head < key other :=
        fun member => List.rel_of_pairwise_cons sorted member
      rw [place]
      split_ifs with below same
      · refine List.pairwise_cons.mpr ⟨fun other member => ?_, sorted⟩
        rcases List.mem_cons.mp member with first | later
        · exact first ▸ below
        · exact below.trans (above later)
      · exact sorted
      · refine List.pairwise_cons.mpr ⟨fun other member => ?_, ih sorted.of_cons⟩
        rcases mem_place member with new | old
        · exact new ▸ lt_of_le_of_ne (not_lt.mp below) (Ne.symm same)
        · exact above old

theorem place_perm {item : α} {items : List α}
    (fresh : ∀ other ∈ items, key item ≠ key other) :
    (place key item items).Perm (item :: items) := by
  induction items with
  | nil => exact List.Perm.refl _
  | cons head rest ih =>
      have different := fresh head (by simp)
      have tail := ih fun other member => fresh other (by simp [member])
      rw [place]
      split_ifs with below
      · exact List.Perm.refl _
      · exact (tail.cons head).trans (List.Perm.swap item head rest)

/-- An ordered set keeps its items in the strict order of their keys. -/
structure OrderedSet (α : Type) {κ : Type} [LinearOrder κ] (key : α → κ) where
  items : List α
  sorted : items.Pairwise fun a b => key a < key b

namespace OrderedSet

def empty : OrderedSet α key := ⟨[], List.Pairwise.nil⟩

def emplace (set : OrderedSet α key) (item : α) : OrderedSet α key :=
  ⟨place key item set.items, place_sorted set.sorted⟩

/-- The items from the first one up to the lower bound of the key. -/
def below (set : OrderedSet α key) (bound : κ) : List α :=
  set.items.takeWhile fun item => key item < bound

/-- The set after those items are erased. -/
def eraseBelow (set : OrderedSet α key) (bound : κ) : OrderedSet α key :=
  ⟨set.items.dropWhile fun item => key item < bound,
    set.sorted.sublist (List.dropWhile_sublist _)⟩

variable (set : OrderedSet α key)

theorem emplace_perm {item : α} (fresh : ∀ other ∈ set.items, key item ≠ key other) :
    (set.emplace item).items.Perm (item :: set.items) :=
  place_perm fresh

@[simp] theorem below_append (bound : κ) :
    set.below bound ++ (set.eraseBelow bound).items = set.items :=
  List.takeWhile_append_dropWhile

theorem below_lt {bound : κ} {item : α} (member : item ∈ set.below bound) :
    key item < bound := by
  have all : (set.below bound).all fun item => key item < bound := List.all_takeWhile
  exact of_decide_eq_true (List.all_eq_true.mp all item member)

theorem below_sorted (bound : κ) :
    (set.below bound).Pairwise fun a b => key a < key b :=
  set.sorted.sublist (List.takeWhile_sublist _)

/-- An item below the bound is in the erased part. -/
theorem mem_below {bound : κ} {item : α} (member : item ∈ set.items)
    (small : key item < bound) : item ∈ set.below bound := by
  obtain ⟨items, sorted⟩ := set
  change item ∈ items.takeWhile fun item => key item < bound
  change item ∈ items at member
  induction items with
  | nil => exact absurd member (by simp)
  | cons head rest ih =>
      rcases List.mem_cons.mp member with first | later
      · subst first
        simp [small]
      · have order := List.rel_of_pairwise_cons sorted later
        have inside := ih sorted.of_cons later
        simp [order.trans small, inside]

end OrderedSet

section Subperm

variable {α β : Type}

theorem subperm_map {first second : List α} (f : α → β) (dropped : first.Subperm second) :
    (first.map f).Subperm (second.map f) := by
  obtain ⟨middle, same, part⟩ := dropped
  exact ⟨middle.map f, same.map f, part.map f⟩

theorem nodup_of_subperm {first second : List α} (dropped : first.Subperm second)
    (distinct : second.Nodup) : first.Nodup := by
  obtain ⟨middle, same, part⟩ := dropped
  exact same.nodup_iff.mp (distinct.sublist part)

end Subperm

section UnorderedMap

variable {κ ν : Type} [DecidableEq κ]

/-- A finite map without an order of its keys. -/
abbrev UnorderedMap (κ ν : Type) := Finmap fun _ : κ => ν

namespace UnorderedMap

variable (map : UnorderedMap κ ν)

theorem lookup_insert (key other : κ) (value : ν) :
    (Finmap.insert key value map).lookup other =
      if other = key then some value else map.lookup other := by
  split_ifs with same
  · rw [same, Finmap.lookup_insert]
  · exact Finmap.lookup_insert_of_ne map same

theorem lookup_erase (key other : κ) :
    (Finmap.erase key map).lookup other = if other = key then none else map.lookup other := by
  split_ifs with same
  · rw [same, Finmap.lookup_erase]
  · exact Finmap.lookup_erase_ne same

end UnorderedMap

end UnorderedMap

end Container
