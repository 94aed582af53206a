import Mathlib.Combinatorics.Enumerative.DoubleCounting
import Mathlib.Data.Finset.Card
import Mathlib.Data.List.Nodup
import Mathlib.Logic.Function.Basic
import Mathlib.Tactic.Common

namespace Container

/-- A ledger keeps each item in the stock of its key or with a holder. -/
structure Ledger (κ ι σ : Type) where
  stock : κ → List ι
  held : σ → Option (κ × ι)

namespace Ledger

variable {κ ι σ : Type} [DecidableEq κ] [DecidableEq σ]

/-- The holder takes the last item of the stock. -/
def take (ledger : Ledger κ ι σ) (holder : σ) (key : κ) (item : ι) : Ledger κ ι σ :=
  ⟨Function.update ledger.stock key (ledger.stock key).dropLast,
    Function.update ledger.held holder (some (key, item))⟩

/-- The holder gives its item back to the end of the stock. -/
def give (ledger : Ledger κ ι σ) (holder : σ) (key : κ) (item : ι) : Ledger κ ι σ :=
  ⟨Function.update ledger.stock key (ledger.stock key ++ [item]),
    Function.update ledger.held holder none⟩

/-- New items come into the stock of a key. -/
def fill (ledger : Ledger κ ι σ) (key : κ) (items : List ι) : Ledger κ ι σ :=
  { ledger with stock := Function.update ledger.stock key (ledger.stock key ++ items) }

/-- An item that nobody owned goes to a holder at once. -/
def entrust (ledger : Ledger κ ι σ) (holder : σ) (key : κ) (item : ι) : Ledger κ ι σ :=
  { ledger with held := Function.update ledger.held holder (some (key, item)) }

/-- The owned items of each key are in its stock or with one holder, and each of them once. -/
structure Balanced (ledger : Ledger κ ι σ) (owned : κ → List ι) : Prop where
  whole : ∀ key item, item ∈ owned key ↔
    item ∈ ledger.stock key ∨ ∃ holder, ledger.held holder = some (key, item)
  once : ∀ key, (ledger.stock key).Nodup
  apart : ∀ key item, item ∈ ledger.stock key → ∀ holder, ledger.held holder ≠ some (key, item)
  single : ∀ key item holder other, ledger.held holder = some (key, item) →
    ledger.held other = some (key, item) → holder = other
  disjoint : ∀ key other item, item ∈ owned key → item ∈ owned other → key = other

omit [DecidableEq κ] [DecidableEq σ] in
theorem Balanced.empty : (⟨fun _ => [], fun _ => none⟩ : Ledger κ ι σ).Balanced fun _ => [] := by
  constructor <;> simp

variable {ledger : Ledger κ ι σ} {owned : κ → List ι} {holder : σ} {key : κ} {item : ι}

theorem take_stock (other : κ) : (ledger.take holder key item).stock other =
    if other = key then (ledger.stock key).dropLast else ledger.stock other :=
  Function.update_apply _ _ _ _

theorem take_held (place : σ) : (ledger.take holder key item).held place =
    if place = holder then some (key, item) else ledger.held place :=
  Function.update_apply _ _ _ _

theorem give_stock (other : κ) : (ledger.give holder key item).stock other =
    if other = key then ledger.stock key ++ [item] else ledger.stock other :=
  Function.update_apply _ _ _ _

theorem give_held (place : σ) : (ledger.give holder key item).held place =
    if place = holder then none else ledger.held place :=
  Function.update_apply _ _ _ _

omit [DecidableEq σ] in
theorem fill_stock {items : List ι} (other : κ) : (ledger.fill key items).stock other =
    if other = key then ledger.stock key ++ items else ledger.stock other :=
  Function.update_apply _ _ _ _

theorem take_held_eq_some (free : ledger.held holder = none) {place : σ} {pair : κ × ι} :
    (ledger.take holder key item).held place = some pair ↔
      place = holder ∧ pair = (key, item) ∨ ledger.held place = some pair := by
  rw [take_held]
  split_ifs with same
  · subst same
    simp [free, eq_comm]
  · simp [same]

theorem give_held_eq_some {place : σ} {pair : κ × ι} :
    (ledger.give holder key item).held place = some pair ↔
      place ≠ holder ∧ ledger.held place = some pair := by
  rw [give_held]
  split_ifs with same
  · simp [same]
  · simp [same]

/-- One more item at the end of one list. -/
theorem mem_update_concat {lists : κ → List ι} {other : κ} {thing : ι} :
    thing ∈ Function.update lists key (lists key ++ [item]) other ↔
      thing ∈ lists other ∨ (other, thing) = (key, item) := by
  rw [Function.update_apply]
  split_ifs with same
  · simp [same]
  · simp [same]

theorem mem_give_stock {other : κ} {thing : ι} :
    thing ∈ (ledger.give holder key item).stock other ↔
      thing ∈ ledger.stock other ∨ (other, thing) = (key, item) :=
  mem_update_concat

theorem entrust_held_eq_some (free : ledger.held holder = none) {place : σ} {pair : κ × ι} :
    (ledger.entrust holder key item).held place = some pair ↔
      place = holder ∧ pair = (key, item) ∨ ledger.held place = some pair :=
  take_held_eq_some free

/-- The last item of a stock without repetition is gone when it is taken. -/
theorem mem_take_stock (once : (ledger.stock key).Nodup)
    (last : (ledger.stock key).getLast? = some item) {other : κ} {thing : ι} :
    thing ∈ (ledger.take holder key item).stock other ↔
      thing ∈ ledger.stock other ∧ (other, thing) ≠ (key, item) := by
  have split : ledger.stock key = (ledger.stock key).dropLast ++ [item] :=
    (List.dropLast_append_getLast? item last).symm
  rw [split, List.nodup_append] at once
  have outside : item ∉ (ledger.stock key).dropLast := fun member =>
    once.2.2 item member item (by simp) rfl
  rw [take_stock]
  split_ifs with same
  · subst same
    constructor
    · intro member
      refine ⟨List.dropLast_subset _ member, ?_⟩
      rintro ⟨⟩
      exact outside member
    · rintro ⟨member, different⟩
      rw [split] at member
      have moved : thing ≠ item := fun same => different (by rw [same])
      simpa [moved] using member
  · simp [same]

omit [DecidableEq κ] [DecidableEq σ] in
/-- An item has one holder, whatever its key. -/
theorem Balanced.holder_eq (balanced : ledger.Balanced owned) {first second : σ}
    {firstKey secondKey : κ} (firstHeld : ledger.held first = some (firstKey, item))
    (secondHeld : ledger.held second = some (secondKey, item)) : first = second := by
  have mine := (balanced.whole firstKey item).mpr (Or.inr ⟨first, firstHeld⟩)
  have theirs := (balanced.whole secondKey item).mpr (Or.inr ⟨second, secondHeld⟩)
  have sameKey := balanced.disjoint firstKey secondKey item mine theirs
  rw [← sameKey] at secondHeld
  exact balanced.single firstKey item first second firstHeld secondHeld

omit [DecidableEq κ] [DecidableEq σ] in
/-- An item of a stock has no holder. -/
theorem Balanced.held_ne (balanced : ledger.Balanced owned) (inside : item ∈ ledger.stock key)
    (place : σ) (other : κ) : ledger.held place ≠ some (other, item) := by
  intro carried
  have mine := (balanced.whole key item).mpr (Or.inl inside)
  have theirs := (balanced.whole other item).mpr (Or.inr ⟨place, carried⟩)
  rw [← balanced.disjoint key other item mine theirs] at carried
  exact balanced.apart key item inside place carried

/-- An item that nobody held has one holder afterwards. -/
theorem Balanced.single_take (balanced : ledger.Balanced owned) (free : ledger.held holder = none)
    (unheld : ∀ place, ledger.held place ≠ some (key, item)) {other : κ} {thing : ι}
    {first second : σ}
    (firstHeld : (ledger.take holder key item).held first = some (other, thing))
    (secondHeld : (ledger.take holder key item).held second = some (other, thing)) :
    first = second := by
  rcases (take_held_eq_some free).mp firstHeld with ⟨rfl, moved⟩ | firstOld <;>
    rcases (take_held_eq_some free).mp secondHeld with ⟨rfl, again⟩ | secondOld
  · rfl
  · cases moved
    exact absurd secondOld (unheld second)
  · cases again
    exact absurd firstOld (unheld first)
  · exact balanced.single other thing first second firstOld secondOld

theorem Balanced.take (balanced : ledger.Balanced owned) (free : ledger.held holder = none)
    (last : (ledger.stock key).getLast? = some item) :
    (ledger.take holder key item).Balanced owned := by
  have inside : item ∈ ledger.stock key := List.mem_of_getLast? last
  constructor
  · intro other thing
    rw [balanced.whole other thing, mem_take_stock (balanced.once key) last]
    by_cases moved : (other, thing) = (key, item)
    · cases moved
      simp [inside, take_held_eq_some free]
    · simp only [take_held_eq_some free, ne_eq, moved, not_false_eq_true, and_true, and_false,
        false_or]
  · intro other
    rw [take_stock]
    split_ifs with same
    · exact (balanced.once key).sublist (List.dropLast_sublist _)
    · exact balanced.once other
  · intro other thing member place carried
    rw [mem_take_stock (balanced.once key) last] at member
    rcases (take_held_eq_some free).mp carried with ⟨_, same⟩ | old
    · exact member.2 same
    · exact balanced.apart other thing member.1 place old
  · intro other thing first second
    exact balanced.single_take free (balanced.apart key item inside)
  · exact balanced.disjoint

theorem Balanced.give (balanced : ledger.Balanced owned)
    (carried : ledger.held holder = some (key, item)) :
    (ledger.give holder key item).Balanced owned := by
  constructor
  · intro other thing
    rw [balanced.whole other thing, mem_give_stock]
    by_cases moved : (other, thing) = (key, item)
    · cases moved
      exact ⟨fun _ => Or.inl (Or.inr rfl), fun _ => Or.inr ⟨holder, carried⟩⟩
    · simp only [give_held_eq_some, moved, or_false]
      refine or_congr_right (exists_congr fun place => ?_)
      refine ⟨fun old => ⟨?_, old⟩, And.right⟩
      rintro rfl
      rw [carried] at old
      cases old
      exact moved rfl
  · intro other
    rw [give_stock]
    split_ifs with same
    · refine List.nodup_append.mpr ⟨balanced.once key, by simp, ?_⟩
      intro thing member again single
      rw [List.mem_singleton.mp single]
      rintro rfl
      exact balanced.apart key thing member holder carried
    · exact balanced.once other
  · intro other thing member place old
    rw [give_held_eq_some] at old
    rcases mem_give_stock.mp member with inside | moved
    · exact balanced.apart other thing inside place old.2
    · cases moved
      exact old.1 (balanced.single key item place holder old.2 carried)
  · intro other thing first second firstHeld secondHeld
    rw [give_held_eq_some] at firstHeld secondHeld
    exact balanced.single other thing first second firstHeld.2 secondHeld.2
  · exact balanced.disjoint

/-- A fresh item that goes to a free holder keeps the balance. -/
theorem Balanced.entrust (balanced : ledger.Balanced owned) (free : ledger.held holder = none)
    (fresh : ∀ other, item ∉ owned other) :
    (ledger.entrust holder key item).Balanced
      (Function.update owned key (owned key ++ [item])) := by
  have unheld : ∀ place other, ledger.held place ≠ some (other, item) := fun place other carried =>
    fresh other ((balanced.whole other item).mpr (Or.inr ⟨place, carried⟩))
  have unstocked : ∀ other, item ∉ ledger.stock other := fun other inside =>
    fresh other ((balanced.whole other item).mpr (Or.inl inside))
  constructor
  · intro other thing
    rw [mem_update_concat, balanced.whole other thing, or_assoc]
    refine or_congr_right ?_
    simp only [entrust_held_eq_some free]
    constructor
    · rintro (⟨place, carried⟩ | moved)
      · exact ⟨place, Or.inr carried⟩
      · exact ⟨holder, Or.inl ⟨rfl, moved⟩⟩
    · rintro ⟨place, ⟨_, moved⟩ | carried⟩
      · exact Or.inr moved
      · exact Or.inl ⟨place, carried⟩
  · exact balanced.once
  · intro other thing inside place carried
    rcases (entrust_held_eq_some free).mp carried with ⟨_, moved⟩ | old
    · cases moved
      exact unstocked key inside
    · exact balanced.apart other thing inside place old
  · intro other thing first second
    exact balanced.single_take free fun place => unheld place key
  · intro first second thing firstOwned secondOwned
    rcases mem_update_concat.mp firstOwned with firstOld | firstNew <;>
      rcases mem_update_concat.mp secondOwned with secondOld | secondNew
    · exact balanced.disjoint first second thing firstOld secondOld
    · cases secondNew
      exact absurd firstOld (fresh first)
    · cases firstNew
      exact absurd secondOld (fresh second)
    · cases firstNew
      cases secondNew
      rfl

omit [DecidableEq σ] in
/-- Fresh items for a key that owns nothing keep the balance. -/
theorem Balanced.fill (balanced : ledger.Balanced owned) {items : List ι}
    (nothing : owned key = []) (distinct : items.Nodup)
    (fresh : ∀ other, ∀ thing ∈ owned other, thing ∉ items) :
    (ledger.fill key items).Balanced (Function.update owned key items) := by
  have none : ∀ thing, thing ∉ ledger.stock key ∧
      ∀ place, ledger.held place ≠ some (key, thing) := by
    intro thing
    have unowned : thing ∉ owned key := by simp [nothing]
    rw [balanced.whole, not_or, not_exists] at unowned
    exact unowned
  have empty : ledger.stock key = [] := List.eq_nil_iff_forall_not_mem.mpr fun thing =>
    (none thing).1
  have stocked : ∀ other, (ledger.fill key items).stock other =
      if other = key then items else ledger.stock other := by
    intro other
    rw [fill_stock, empty, List.nil_append]
  constructor
  · intro other thing
    rw [stocked, Function.update_apply]
    split_ifs with same
    · subst same
      simp [Ledger.fill, (none thing).2]
    · exact balanced.whole other thing
  · intro other
    rw [stocked]
    split_ifs with same
    · exact distinct
    · exact balanced.once other
  · intro other thing member place
    rw [stocked] at member
    split_ifs at member with same
    · exact same ▸ (none thing).2 place
    · exact balanced.apart other thing member place
  · exact balanced.single
  · intro first second thing firstOwned secondOwned
    rw [Function.update_apply] at firstOwned secondOwned
    split_ifs at firstOwned secondOwned with firstSame secondSame secondSame
    · rw [firstSame, secondSame]
    · exact absurd firstOwned (fresh second thing secondOwned)
    · exact absurd secondOwned (fresh first thing firstOwned)
    · exact balanced.disjoint first second thing firstOwned secondOwned

omit [DecidableEq κ] [DecidableEq σ] in
/-- The stock and the holders of a key have all its items between them. -/
theorem Balanced.count [DecidableEq ι] (balanced : ledger.Balanced owned)
    (distinct : (owned key).Nodup) (holders : Finset σ)
    (all : ∀ holder, holder ∈ holders ↔ ∃ item, ledger.held holder = some (key, item)) :
    (ledger.stock key).length + holders.card = (owned key).length := by
  let items : Finset ι := (owned key).toFinset \ (ledger.stock key).toFinset
  have part : (ledger.stock key).toFinset ⊆ (owned key).toFinset := by
    intro item member
    simp only [List.mem_toFinset] at member ⊢
    exact (balanced.whole key item).mpr (Or.inl member)
  have outside : ∀ item, item ∈ items ↔ ∃ holder, ledger.held holder = some (key, item) := by
    intro item
    simp only [items, Finset.mem_sdiff, List.mem_toFinset, balanced.whole]
    constructor
    · tauto
    · rintro ⟨holder, carried⟩
      exact ⟨Or.inr ⟨holder, carried⟩, fun member => balanced.apart key item member holder carried⟩
  have carried : holders.card = items.card := by
    let carries : σ → ι → Prop := fun holder item => ledger.held holder = some (key, item)
    apply le_antisymm
    · refine Finset.card_le_card_of_forall_subsingleton carries (fun holder member => ?_)
        fun item _ first firstHeld second secondHeld => ?_
      · obtain ⟨item, held⟩ := (all holder).mp member
        exact ⟨item, (outside item).mpr ⟨holder, held⟩, held⟩
      · exact balanced.single key item first second firstHeld.2 secondHeld.2
    · refine Finset.card_le_card_of_forall_subsingleton (fun item holder => carries holder item)
        (fun item member => ?_) fun holder _ first firstHeld second secondHeld => ?_
      · obtain ⟨holder, held⟩ := (outside item).mp member
        exact ⟨holder, (all holder).mpr ⟨item, held⟩, held⟩
      · have same := Option.some.inj (firstHeld.2.symm.trans secondHeld.2)
        exact congrArg Prod.snd same
  have sizes := Finset.card_sdiff_add_card_eq_card part
  rw [List.toFinset_card_of_nodup distinct,
    List.toFinset_card_of_nodup (balanced.once key)] at sizes
  change items.card + _ = _ at sizes
  omega

end Ledger

end Container
