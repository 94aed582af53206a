import Mathlib.Data.List.Basic
import Mathlib.Data.List.Forall2

namespace Separated

variable {Char : Type} {separator : Char} {front other back rest : List Char}

/-- The text up to the first separator is the field before it. -/
theorem takeWhile_field [DecidableEq Char] (closed : separator ∉ front) :
    (front ++ separator :: back).takeWhile (· ≠ separator) = front := by
  have inside : ∀ char ∈ front, decide (char ≠ separator) = true := by
    intro char member
    apply decide_eq_true
    rintro rfl
    exact closed member
  rw [List.takeWhile_append_of_pos inside, List.takeWhile_cons_of_neg (by simp), List.append_nil]

/-- Fields without the separator can be read back. -/
theorem field_inj (closed : separator ∉ front) (apart : separator ∉ other)
    (same : front ++ separator :: back = other ++ separator :: rest) :
    front = other ∧ back = rest := by
  classical
  have fields : front = other := by
    have mine : (front ++ separator :: back).takeWhile (· ≠ separator) = front :=
      takeWhile_field closed
    rw [← mine, same, takeWhile_field apart]
  subst fields
  exact ⟨rfl, (List.cons.inj (List.append_cancel_left same)).2⟩

/-- A substitution of characters gives one text for two if it does so at each place. -/
theorem map_eq_map_iff {Other : Type} (change : Char → Other) :
    front.map change = other.map change ↔
      List.Forall₂ (fun a b => change a = change b) front other := by
  rw [← List.forall₂_eq_eq_eq, List.forall₂_map_left_iff, List.forall₂_map_right_iff]

end Separated
