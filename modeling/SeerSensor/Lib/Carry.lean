/-
Replicas of byte strings under keys, and what one attempt to carry a replica
from one key to another may do to them: nothing, leave a prefix at the
destination with the source kept, or move the whole of it.

The question is always which complete replicas survive. One away from the
destination does, at its own key or at the destination (`Carry.survives`); the
one at the destination survives exactly when the source replaces it by the
same bytes, which is where carrying a torn replica over a good one hurts.
-/
import Mathlib.Logic.Function.Basic
import Mathlib.Data.List.Basic

namespace Replica

variable {κ β : Type*} [DecidableEq κ]

/-- What one attempt to carry the replica at `a` to `b` may leave. -/
inductive Carry (a b : κ) (m : κ → Option (List β)) : (κ → Option (List β)) → Prop
  | nothing : Carry a b m m
  | part {w : List β} (n : Nat) : m a = some w → Carry a b m (Function.update m b (some (w.take n)))
  | whole {w : List β} : m a = some w →
      Carry a b m (Function.update (Function.update m a none) b (some w))

section
variable {a b p : κ} {m m' : κ → Option (List β)} {c : List β}

theorem Carry.frame (h : Carry a b m m') (ha : p ≠ a) (hb : p ≠ b) : m' p = m p := by
  cases h with
  | nothing => rfl
  | part n _ => simp [hb]
  | whole _ => simp [hb, ha]

/-- A complete replica away from the destination stays, or is now there. -/
theorem Carry.survives (h : Carry a b m m') (hp : m p = some c) (hb : p ≠ b) :
    m' p = some c ∨ m' b = some c := by
  cases h with
  | nothing => exact .inl hp
  | part n _ => left; simp [hb, hp]
  | whole ha =>
    by_cases hpa : p = a
    · subst hpa
      right
      simp [← ha, hp]
    · left; simp [hb, hpa, hp]

/-- What is at the destination afterwards was there before, or is a prefix of the source. -/
theorem Carry.dest (h : Carry a b m m') :
    m' b = m b ∨ ∃ w n, m a = some w ∧ m' b = some (w.take n) := by
  cases h with
  | nothing => exact .inl rfl
  | part n ha => exact .inr ⟨_, n, ha, by simp⟩
  | whole ha => exact .inr ⟨_, _, ha, by rw [List.take_of_length_le (Nat.le_refl _)]; simp⟩

/-- The source is kept, or is gone with the whole of it at the destination. -/
theorem Carry.source (h : Carry a b m m') (hab : a ≠ b) :
    m' a = m a ∨ m' a = none ∧ m' b = m a := by
  cases h with
  | nothing => exact .inl rfl
  | part n _ => left; simp [hab]
  | whole ha => right; simp [hab, ha]

end

/-- An attempt that, once begun, goes through: nothing, or the whole of it. -/
inductive Shift (a b : κ) (m : κ → Option (List β)) : (κ → Option (List β)) → Prop
  | nothing : Shift a b m m
  | whole {w : List β} : m a = some w →
      Shift a b m (Function.update (Function.update m a none) b (some w))

end Replica
