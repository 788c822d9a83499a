/-
A conveyor belt: items enter at one place and are carried from place to place,
always to a later one. Nothing is ever taken off, split or changed, and that is
what the belt is for: a system that refines it loses and duplicates nothing.
-/
import SeerSensor.Lib.Runs
import Mathlib.Logic.Function.Basic

namespace Belt

variable {κ β π : Type*} [DecidableEq κ]

/-- What each item is, and where. -/
abbrev Items (κ β π : Type*) := κ → Option (β × π)

/-- An item comes, or is carried on. -/
inductive Move (κ β π : Type*) where
  | enter (k : κ) (b : β)
  | carry (k : κ) (p : π)

/-- An item enters once, at `entry`; it is carried only to a place after its own. -/
def step (entry : π) (before : π → π → Prop) [DecidableRel before] (m : Items κ β π) :
    Move κ β π → Option (Items κ β π)
  | .enter k b => if m k = none then some (Function.update m k (some (b, entry))) else none
  | .carry k p =>
    match m k with
    | none => none
    | some (b, q) => if before q p then some (Function.update m k (some (b, p))) else none

section
variable {entry : π} {before : π → π → Prop} [DecidableRel before] {m m' : Items κ β π} {k : κ} {b : β}
  {p q : π}

theorem step_enter (h : m k = none) :
    step entry before m (.enter k b) = some (Function.update m k (some (b, entry))) := by
  simp [step, h]

theorem step_carry (h : m k = some (b, q)) (hqp : before q p) :
    step entry before m (.carry k p) = some (Function.update m k (some (b, p))) := by
  simp [step, h, hqp]

/-- An item that is on the belt stays what it is, and where it is or further on. -/
theorem step_kept {a : Move κ β π} (h : step entry before m a = some m') (hk : m k = some (b, q)) :
    ∃ p, m' k = some (b, p) ∧ (p = q ∨ before q p) := by
  cases a with
  | enter x c =>
    obtain ⟨hfree, h⟩ := Option.ite_none_right_eq_some.mp h
    cases h
    have hne : k ≠ x := by
      rintro rfl
      cases hfree.symm.trans hk
    exact ⟨q, by simp [hne, hk], .inl rfl⟩
  | carry x p =>
    simp only [step] at h
    split at h
    · cases h
    next c r hx =>
      obtain ⟨hrp, h⟩ := Option.ite_none_right_eq_some.mp h
      cases h
      by_cases hkx : k = x
      · subst hkx
        cases hk.symm.trans hx
        exact ⟨p, by simp, .inr hrp⟩
      · exact ⟨q, by simp [hkx, hk], .inl rfl⟩

theorem run_kept (htrans : ∀ p q r, before p q → before q r → before p r) {as : List (Move κ β π)}
    (h : Runs.run (step entry before) m as = some m') (hk : m k = some (b, q)) :
    ∃ p, m' k = some (b, p) ∧ (p = q ∨ before q p) := by
  induction as generalizing m q with
  | nil => cases h; exact ⟨q, hk, .inl rfl⟩
  | cons a as ih =>
    obtain ⟨m₁, h₁, h⟩ := Runs.run_cons.mp h
    obtain ⟨r, hr, hqr⟩ := step_kept h₁ hk
    obtain ⟨p, hp, hrp⟩ := ih h hr
    refine ⟨p, hp, ?_⟩
    rcases hqr with rfl | hqr
    · exact hrp
    · rcases hrp with rfl | hrp
      · exact .inr hqr
      · exact .inr (htrans _ _ _ hqr hrp)

end

end Belt
