/-
An incremental hash: feeding it in pieces is feeding it the whole. The read
loop stops at the first empty read, as a file's does at its end.

`feed_readsOf` is for reads that are as long as they may be. `drain_reading` is for
reads of any size: each takes at least one byte, so the loop ends after at most one
read a byte and the empty one.
-/
import Mathlib.Algebra.BigOperators.Group.List.Basic

namespace Hash

/-- A hash object: what it starts from, what feeding bytes does, and its hex digest. -/
structure Incremental where
  State : Type
  init : State
  update : State → List UInt8 → State
  hexdigest : State → String
  update_nil : ∀ h, update h [] = h
  update_append : ∀ h a b, update (update h a) b = update h (a ++ b)

/-- The digest of a whole content. -/
def Incremental.digest (H : Incremental) (b : List UInt8) : String := H.hexdigest (H.update H.init b)

/-- Feed each read until one comes back empty. -/
def Incremental.feed (H : Incremental) : H.State → List (List UInt8) → H.State
  | h, [] => h
  | h, chunk :: reads => if chunk = [] then h else H.feed (H.update h chunk) reads

/-- The reads of a content, `size` bytes at a time, the last one empty. The
first argument bounds the number of reads. -/
def readsOf (size : Nat) : Nat → List UInt8 → List (List UInt8)
  | 0, _ => [[]]
  | fuel + 1, b => if b = [] then [[]] else b.take size :: readsOf size fuel (b.drop size)

theorem Incremental.feed_readsOf (H : Incremental) {size : Nat} (hsize : 0 < size) :
    ∀ (fuel : Nat) (b : List UInt8) (h : H.State), b.length ≤ fuel →
      H.feed h (readsOf size fuel b) = H.update h b
  | 0, b, h, hb => by
    have : b = [] := List.length_eq_zero_iff.mp (by omega)
    simp [readsOf, feed, this, H.update_nil]
  | fuel + 1, b, h, hb => by
    by_cases hnil : b = []
    · simp [readsOf, feed, hnil, H.update_nil]
    · have hpos : 0 < b.length := List.length_pos_iff.mpr hnil
      have htake : b.take size ≠ [] := by
        simp only [ne_eq, List.take_eq_nil_iff, not_or]
        exact ⟨by omega, hnil⟩
      have hdrop : (b.drop size).length ≤ fuel := by simp only [List.length_drop]; omega
      simp only [readsOf, hnil, if_false, feed, htake]
      rw [H.feed_readsOf hsize fuel _ _ hdrop, H.update_append, List.take_append_drop]

/-! ## Reads of any size -/

/-- A way of reading a content: what each read returns until nothing is left, at least
one byte and at most `size`. -/
structure Reading (size : Nat) (b : List UInt8) where
  chunks : List (List UInt8)
  nonempty : ∀ c ∈ chunks, 1 ≤ c.length
  bounded : ∀ c ∈ chunks, c.length ≤ size
  whole : chunks.flatten = b

/-- What the read number `i` returns; nothing once the content has been read. -/
def Reading.read {size : Nat} {b : List UInt8} (r : Reading size b) (i : Nat) : List UInt8 :=
  (r.chunks[i]?).getD []

/-- Feed what the reads return, from the read number `i` on, until one comes back empty;
`none` if none of the next `fuel` does. -/
def Incremental.drain (H : Incremental) (read : Nat → List UInt8) : Nat → Nat → H.State → Option H.State
  | 0, _, _ => none
  | fuel + 1, i, h => if read i = [] then some h else H.drain read fuel (i + 1) (H.update h (read i))

section
variable {size : Nat} {b : List UInt8}

theorem Reading.length_chunks_le (r : Reading size b) : r.chunks.length ≤ b.length := by
  have hle := List.length_le_sum_of_one_le (r.chunks.map List.length) (by
    intro n hn
    obtain ⟨c, hc, rfl⟩ := List.mem_map.mp hn
    exact r.nonempty c hc)
  rw [← List.length_flatten, r.whole, List.length_map] at hle
  exact hle

/-- A read comes back empty exactly at the end. -/
theorem Reading.read_eq_nil_iff (r : Reading size b) {i : Nat} : r.read i = [] ↔ r.chunks.length ≤ i := by
  unfold Reading.read
  cases hc : r.chunks[i]? with
  | none => simpa using List.getElem?_eq_none_iff.mp hc
  | some c =>
    have hpos := r.nonempty c (List.mem_of_getElem? hc)
    obtain ⟨hlt, _⟩ := List.getElem?_eq_some_iff.mp hc
    constructor
    · intro hnil
      rw [Option.getD_some] at hnil
      rw [hnil, List.length_nil] at hpos
      omega
    · intro hle
      omega

theorem Reading.drop_chunks (r : Reading size b) {i : Nat} (hi : i < r.chunks.length) :
    (r.chunks.drop i).flatten = r.read i ++ (r.chunks.drop (i + 1)).flatten := by
  rw [List.drop_eq_getElem_cons hi, List.flatten_cons, Reading.read, List.getElem?_eq_getElem hi, Option.getD_some]

/-- However the content is read, the loop ends and the hash has been fed all of it. -/
theorem Incremental.drain_reading (H : Incremental) (r : Reading size b) :
    ∀ (fuel i : Nat) (h : H.State), r.chunks.length < i + fuel → i ≤ r.chunks.length →
      H.drain r.read fuel i h = some (H.update h (r.chunks.drop i).flatten)
  | 0, i, h, hfuel, hi => by omega
  | fuel + 1, i, h, hfuel, hi => by
    by_cases hend : r.chunks.length ≤ i
    · have hdrop : r.chunks.drop i = [] := List.drop_eq_nil_iff.mpr hend
      rw [drain, if_pos (r.read_eq_nil_iff.mpr hend), hdrop, List.flatten_nil, H.update_nil]
    · have hlt : i < r.chunks.length := by omega
      rw [drain, if_neg (mt r.read_eq_nil_iff.mp hend), H.drain_reading r fuel (i + 1) _ (by omega) hlt,
        H.update_append, r.drop_chunks hlt]

end

end Hash
