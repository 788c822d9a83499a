/-
Numbers written with a fixed number of decimal digits, as `%04d` does: texts of one
length, so that they compare as the numbers do.
-/
import Mathlib.Algebra.Order.Ring.Nat
import Mathlib.Data.List.Lex

namespace Padded

/-- The last `w` decimal digits of `n`. -/
def pad : Nat → Nat → List Char
  | 0, _ => []
  | w + 1, n => pad w (n / 10) ++ [Nat.digitChar (n % 10)]

@[simp] theorem pad_length (w n : Nat) : (pad w n).length = w := by
  induction w generalizing n with
  | zero => rfl
  | succ w ih => simp [pad, ih]

section
variable {α : Type*} [LT α] {a b x y : List α}

/-- Behind texts of one length, what follows decides only between equals. -/
theorem append_lt_append (hlen : a.length = b.length) :
    a ++ x < b ++ y ↔ a < b ∨ a = b ∧ x < y := by
  induction a generalizing b with
  | nil =>
    obtain rfl := List.length_eq_zero_iff.mp hlen.symm
    simp
  | cons c a ih =>
    cases b with
    | nil => cases hlen
    | cons d b =>
      rw [List.cons_append, List.cons_append, List.cons_lt_cons_iff, List.cons_lt_cons_iff,
        ih (Nat.succ.inj hlen), List.cons_eq_cons]
      tauto

end

theorem digitChar_lt : ∀ i < 10, ∀ j < 10, (Nat.digitChar i < Nat.digitChar j ↔ i < j) := by decide

theorem digitChar_inj : ∀ i < 10, ∀ j < 10, (Nat.digitChar i = Nat.digitChar j ↔ i = j) := by decide

theorem div_lt {w m : Nat} (h : m < 10 ^ (w + 1)) : m / 10 < 10 ^ w :=
  Nat.div_lt_of_lt_mul (by rwa [Nat.pow_succ, Nat.mul_comm] at h)

theorem pad_inj {w m n : Nat} (hm : m < 10 ^ w) (hn : n < 10 ^ w) : pad w m = pad w n ↔ m = n := by
  induction w generalizing m n with
  | zero =>
    rw [Nat.pow_zero, Nat.lt_one_iff] at hm hn
    simp [hm, hn]
  | succ w ih =>
    constructor
    · intro h
      obtain ⟨hhigh, hlow⟩ := List.append_inj h (by simp)
      have hdiv := (ih (div_lt hm) (div_lt hn)).mp hhigh
      have hmod := (digitChar_inj (m % 10) (Nat.mod_lt m (by decide)) (n % 10)
        (Nat.mod_lt n (by decide))).mp (List.singleton_inj.mp hlow)
      omega
    · rintro rfl
      rfl

/-- **The texts compare as the numbers.** -/
theorem pad_lt {w m n : Nat} (hm : m < 10 ^ w) (hn : n < 10 ^ w) : pad w m < pad w n ↔ m < n := by
  induction w generalizing m n with
  | zero =>
    rw [Nat.pow_zero, Nat.lt_one_iff] at hm hn
    simp [hm, hn]
  | succ w ih =>
    have hlow : [Nat.digitChar (m % 10)] < [Nat.digitChar (n % 10)] ↔ m % 10 < n % 10 := by
      rw [List.cons_lt_cons_iff, digitChar_lt _ (Nat.mod_lt m (by decide)) _ (Nat.mod_lt n (by decide))]
      simp
    rw [pad, pad, append_lt_append (by simp), ih (div_lt hm) (div_lt hn), pad_inj (div_lt hm) (div_lt hn),
      hlow]
    omega

end Padded
