/-
Reading a queue off an unordered listing. Sorting by a key that strictly
increases along the queue gives the queue back, and a search for what every
older entry passes too finds the head or nothing.
-/
import Mathlib.Data.List.Sort

namespace Oldest

variable {α κ : Type*} [LinearOrder κ]

theorem insertionSort_eq {r : α → α → Prop} [DecidableRel r] (key : α → κ)
    (hr : ∀ a b, r a b ↔ key a ≤ key b)
    {l q : List α} (hp : l.Perm q) (hq : q.Pairwise fun a b => key a < key b) :
    l.insertionSort r = q := by
  have htotal : Std.Total r := ⟨fun a b => by rw [hr, hr]; exact le_total _ _⟩
  have htrans : IsTrans α r := ⟨fun a b c hab hbc => by rw [hr] at *; exact le_trans hab hbc⟩
  have hsorted := List.pairwise_insertionSort r l
  have hqr : q.Pairwise r := hq.imp fun h => (hr _ _).mpr (le_of_lt h)
  have hperm : (l.insertionSort r).Perm q := (List.perm_insertionSort r l).trans hp
  -- no two entries of the queue share a key
  have hkeys : (q.map key).Nodup := List.pairwise_map.mpr (hq.imp fun h => ne_of_lt h)
  refine hperm.eq_of_pairwise (fun a b ha hb hab hba => ?_) hsorted hqr
  have hkey : key a = key b := le_antisymm ((hr a b).mp hab) ((hr b a).mp hba)
  exact List.inj_on_of_nodup_map hkeys (hperm.mem_iff.mp ha) hb hkey

/-- What is found is the head, when whatever passes has every entry before it pass. -/
theorem find?_eq_head {p : α → Bool} {q : List α} {a : α}
    (hq : q.Pairwise fun a b => p b = true → p a = true)
    (h : q.find? p = some a) : q.head? = some a := by
  cases q with
  | nil => simp at h
  | cons b q =>
    by_cases hb : p b = true
    · simpa [List.find?_cons, hb] using h
    · have ha := List.find?_some h
      have hmem := List.mem_of_find?_eq_some h
      rcases List.mem_cons.mp hmem with rfl | hmem
      · rfl
      · exact absurd ((List.pairwise_cons.mp hq).1 a hmem ha) hb

end Oldest
