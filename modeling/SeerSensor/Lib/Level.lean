/-
A queue between two timers: something arrives when the first goes off, and one
thing may be taken when the second does. `level` counts what is waiting plus
what the two due times still owe each other, in periods of the taker. An
arrival after `r` changes it by `1 - r / p`, a taking not at all and a turn that
takes nothing by `1`, so it is the quantity to bound, or to let grow.
-/
import Mathlib.Algebra.Order.Field.Basic
import Mathlib.Data.Rat.Cast.Order
import Mathlib.Tactic.FieldSimp
import Mathlib.Tactic.Linarith
import Mathlib.Tactic.Ring

namespace Level

/-- `count` waiting, the next arrival due at `i` and the next turn of the taker,
of period `p`, due at `o`. -/
def level (p : ℚ) (count : Nat) (i o : ℚ) : ℚ := count + (o - i) / p

variable {p r i o : ℚ} {count m : Nat}

theorem level_arrive (hp : 0 < p) :
    level p (count + 1) (i + r) o = level p count i o + (1 - r / p) := by
  unfold level
  push_cast
  field_simp
  ring

theorem level_take (hp : 0 < p) : level p count i (o + p) = level p (count + 1) i o := by
  unfold level
  push_cast
  field_simp
  ring

theorem level_idle (hp : 0 < p) : level p count i (o + p) = level p count i o + 1 := by
  unfold level
  field_simp
  ring

/-- A turn that takes nothing comes no later than the next arrival, so what it
leaves is what is waiting and at most one more. -/
theorem level_idle_le (hp : 0 < p) (hturn : o ≤ i) (hm : count ≤ m) :
    level p count i (o + p) ≤ m + 1 := by
  have h1 : (o - i) / p ≤ 0 := div_nonpos_of_nonpos_of_nonneg (by linarith) hp.le
  have h2 : (count : ℚ) ≤ m := by exact_mod_cast hm
  rw [level_idle hp]
  unfold level
  linarith

theorem count_le (hp : 0 < p) (hdue : i ≤ o + r) : (count : ℚ) ≤ level p count i o + r / p := by
  have h : 0 ≤ (o - i + r) / p := div_nonneg (by linarith) hp.le
  rw [add_div] at h
  unfold level
  linarith

theorem level_le (hp : 0 < p) (hdue : o ≤ i + p) : level p count i o ≤ count + 1 := by
  have h : (o - i) / p ≤ 1 := (div_le_one hp).mpr (by linarith)
  unfold level
  linarith

end Level
