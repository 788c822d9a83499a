/-
The best entry of a list. Entries that have a rank are sorted from the
highest down, stably, and the first is taken: that is the first of those no
other outranks. `head?_sorted_iff` says so of the list as it stands, with the
entries that have no rank among the others, and `leads_forall_iff` says of what
is taken what it says of every entry: whoever lacks a property is overtaken by
one that has it.
-/
import Mathlib.Data.List.Sort

namespace Best

variable {α γ κ : Type*} [LinearOrder κ]

/-- The entry has a rank that none before it reaches and none after it exceeds. -/
def Leads (rank : α → Option κ) (l : List α) (a : α) : Prop :=
  ∃ before after k, l = before ++ a :: after ∧ rank a = some k ∧
    (∀ b ∈ before, ∀ j, rank b = some j → j < k) ∧ ∀ b ∈ after, ∀ j, rank b = some j → j ≤ k

/-- Of the entries around one of rank `i`, one that has the property goes ahead of it. -/
def Overtaken (rank : α → Option κ) (P : α → Prop) (before after : List α) (i : κ) : Prop :=
  (∃ b ∈ before, P b ∧ ∃ j, rank b = some j ∧ i ≤ j) ∨ ∃ b ∈ after, P b ∧ ∃ j, rank b = some j ∧ i < j

variable {rank : α → Option κ} {l before after : List α} {a b x : α} {i : κ}

theorem Leads.mem (h : Leads rank l a) : a ∈ l := by
  obtain ⟨before, after, k, rfl, -⟩ := h
  simp

theorem Leads.ranked (h : Leads rank l a) : ∃ k, rank a = some k ∧ ∀ b ∈ l, ∀ j, rank b = some j → j ≤ k := by
  obtain ⟨before, after, k, rfl, hk, hbefore, hafter⟩ := h
  refine ⟨k, hk, fun b hb j hj => ?_⟩
  rcases List.mem_append.mp hb with hb | hb
  · exact le_of_lt (hbefore b hb j hj)
  · rcases List.mem_cons.mp hb with rfl | hb
    · exact le_of_eq (Option.some.inj (hj.symm.trans hk))
    · exact hafter b hb j hj

theorem not_leads_nil : ¬ Leads rank [] a := fun h => absurd h.mem (by simp)

/-- The first entry leads, or is outranked by the one that does. -/
theorem leads_cons : Leads rank (x :: l) a ↔
    (a = x ∧ ∃ k, rank x = some k ∧ ∀ b ∈ l, ∀ j, rank b = some j → j ≤ k) ∨
      (Leads rank l a ∧ ∀ i k, rank x = some i → rank a = some k → i < k) := by
  refine ⟨fun h => ?_, fun h => ?_⟩
  · obtain ⟨before, after, k, hl, hk, hbefore, hafter⟩ := h
    cases before with
    | nil =>
      obtain ⟨rfl, rfl⟩ := List.cons.inj hl
      exact .inl ⟨rfl, k, hk, hafter⟩
    | cons y before =>
      obtain ⟨rfl, rfl⟩ := List.cons.inj hl
      refine .inr ⟨⟨before, after, k, rfl, hk, fun b hb => hbefore b (by simp [hb]), hafter⟩, ?_⟩
      intro i k' hi hk'
      cases hk.symm.trans hk'
      exact hbefore x (by simp) i hi
  · rcases h with ⟨rfl, k, hk, hall⟩ | ⟨⟨before, after, k, rfl, hk, hbefore, hafter⟩, hx⟩
    · exact ⟨[], l, k, rfl, hk, by simp, hall⟩
    · refine ⟨x :: before, after, k, rfl, hk, fun b hb j hj => ?_, hafter⟩
      rcases List.mem_cons.mp hb with rfl | hb
      · exact hx j k hj hk
      · exact hbefore b hb j hj

theorem leads_cons_unranked (hx : rank x = none) : Leads rank (x :: l) a ↔ Leads rank l a := by
  rw [leads_cons]
  refine ⟨fun h => ?_, fun h => .inr ⟨h, fun i k hi => ?_⟩⟩
  · rcases h with ⟨-, k, hk, -⟩ | ⟨h, -⟩
    · rw [hx] at hk
      cases hk
    · exact h
  · rw [hx] at hi
    cases hi

/-- Before entries without a rank, the first entry leads if it has one. -/
theorem leads_cons_alone {k : κ} (hx : rank x = some k) (hl : ∀ b ∈ l, rank b = none) :
    Leads rank (x :: l) a ↔ a = x := by
  rw [leads_cons]
  refine ⟨fun h => ?_, fun h => .inl ⟨h, k, hx, fun b hb j hj => ?_⟩⟩
  · rcases h with ⟨h, -⟩ | ⟨h, -⟩
    · exact h
    · obtain ⟨j, hj, -⟩ := h.ranked
      rw [hl a h.mem] at hj
      cases hj
  · rw [hl b hb] at hj
    cases hj

/-- Before others, it leads if the entry that leads them does not outrank it. -/
theorem leads_cons_ranked {y : α} {i k : κ} (hy : Leads rank l y) (hk : rank y = some k) (hx : rank x = some i) :
    Leads rank (x :: l) a ↔ if k ≤ i then a = x else Leads rank l a := by
  obtain ⟨k', hk', hmax⟩ := hy.ranked
  cases hk.symm.trans hk'
  rw [leads_cons]
  split_ifs with hle
  · refine ⟨fun h => ?_, fun h => .inl ⟨h, i, hx, fun b hb j hj => le_trans (hmax b hb j hj) hle⟩⟩
    rcases h with ⟨h, -⟩ | ⟨h, hlt⟩
    · exact h
    · obtain ⟨j, hj, -⟩ := h.ranked
      exact absurd (le_trans (hmax a h.mem j hj) hle) (not_le.mpr (hlt i j hx hj))
  · refine ⟨fun h => ?_, fun h => .inr ⟨h, fun i' j hi' hj => ?_⟩⟩
    · rcases h with ⟨-, i', hi', hall⟩ | ⟨h, -⟩
      · cases hx.symm.trans hi'
        exact absurd (hall y hy.mem k hk) hle
      · exact h
    · cases hx.symm.trans hi'
      -- whoever leads the others has the highest of their ranks
      obtain ⟨j', hj', hmax'⟩ := h.ranked
      cases hj.symm.trans hj'
      exact lt_of_lt_of_le (not_le.mp hle) (hmax' y hy.mem k hk)

theorem exists_leads (h : ∃ a ∈ l, rank a ≠ none) : ∃ a, Leads rank l a := by
  induction l with
  | nil =>
    obtain ⟨a, ha, -⟩ := h
    cases ha
  | cons x l ih =>
    cases hx : rank x with
    | none =>
      simp only [leads_cons_unranked hx]
      refine ih ?_
      obtain ⟨a, ha, hranked⟩ := h
      rcases List.mem_cons.mp ha with rfl | ha
      · exact absurd hx hranked
      · exact ⟨a, ha, hranked⟩
    | some i =>
      by_cases hl : ∃ a ∈ l, rank a ≠ none
      · obtain ⟨y, hy⟩ := ih hl
        obtain ⟨k, hk, -⟩ := hy.ranked
        simp only [leads_cons_ranked hy hk hx]
        split_ifs
        · exact ⟨x, rfl⟩
        · exact ⟨y, hy⟩
      · simp only [not_exists, not_and, not_not] at hl
        exact ⟨x, (leads_cons_alone hx hl).mpr rfl⟩

/-- Where the entry that leads stands, seen from another. -/
theorem Leads.around (h : Leads rank (before ++ a :: after) b) (ha : rank a = some i) :
    b = a ∨ (b ∈ before ∧ ∃ j, rank b = some j ∧ i ≤ j) ∨ b ∈ after ∧ ∃ j, rank b = some j ∧ i < j := by
  obtain ⟨before', after', k, hl, hk, hbefore, hafter⟩ := h
  rcases List.append_eq_append_iff.mp hl with ⟨l, rfl, hrest⟩ | ⟨l, rfl, hrest⟩
  · cases l with
    | nil => exact .inl (List.cons.inj hrest).1.symm
    | cons y l =>
      obtain ⟨rfl, rfl⟩ := List.cons.inj hrest
      exact .inr (.inr ⟨by simp, k, hk, hbefore a (by simp) i ha⟩)
  · cases l with
    | nil => exact .inl (List.cons.inj hrest).1
    | cons y l =>
      obtain ⟨rfl, rfl⟩ := List.cons.inj hrest
      exact .inr (.inl ⟨by simp, k, hk, hafter a (by simp) i ha⟩)

theorem Leads.unique (ha : Leads rank l a) (hb : Leads rank l b) : a = b := by
  obtain ⟨before, after, k, rfl, hk, hbefore, hafter⟩ := ha
  rcases hb.around hk with h | ⟨hmem, j, hj, hle⟩ | ⟨hmem, j, hj, hlt⟩
  · exact h.symm
  · exact absurd (hbefore b hmem j hj) (not_lt.mpr hle)
  · exact absurd (hafter b hmem j hj) (not_le.mpr hlt)

/-- **What leads has a property** exactly when every ranked entry without it is overtaken
by one that has it. -/
theorem leads_forall_iff (P : α → Prop) : (∀ a, Leads rank l a → P a) ↔
    ∀ before a after i, l = before ++ a :: after → rank a = some i → ¬ P a →
      Overtaken rank P before after i := by
  refine ⟨fun h before a after i hl hi hnot => ?_, fun h a ha => ?_⟩
  · subst hl
    have hranked : rank a ≠ none := by simp [hi]
    obtain ⟨b, hb⟩ := exists_leads ⟨a, List.mem_append_cons_self, hranked⟩
    have hP := h b hb
    rcases hb.around hi with rfl | ⟨hmem, hj⟩ | ⟨hmem, hj⟩
    · exact absurd hP hnot
    · exact .inl ⟨b, hmem, hP, hj⟩
    · exact .inr ⟨b, hmem, hP, hj⟩
  · by_contra hnot
    obtain ⟨before, after, k, rfl, hk, hbefore, hafter⟩ := ha
    rcases h before a after k rfl hk hnot with ⟨b, hmem, -, j, hj, hle⟩ | ⟨b, hmem, -, j, hj, hlt⟩
    · exact absurd (hbefore b hmem j hj) (not_lt.mpr hle)
    · exact absurd (hafter b hmem j hj) (not_le.mpr hlt)

theorem head?_orderedInsert {r : γ → γ → Prop} [DecidableRel r] (c : γ) (s : List γ) :
    (s.orderedInsert r c).head? = match s.head? with
      | none => some c
      | some b => if r c b then some c else some b := by
  cases s with
  | nil => rfl
  | cons b s =>
    rw [List.orderedInsert_cons]
    simp only [List.head?_cons]
    split <;> rfl

/-- **Sorting and taking the first finds the entry that leads.** -/
theorem head?_sorted_iff {r : γ → γ → Prop} [DecidableRel r] {g : α → Option γ} {key : γ → κ}
    (hr : ∀ c d, r c d ↔ key d ≤ key c) (hrank : ∀ a, rank a = (g a).map key) (l : List α) (c : γ) :
    ((l.filterMap g).insertionSort r).head? = some c ↔ ∃ a, Leads rank l a ∧ g a = some c := by
  induction l generalizing c with
  | nil =>
    refine iff_of_false (by simp) ?_
    rintro ⟨a, ha, -⟩
    exact not_leads_nil ha
  | cons x l ih =>
    cases hx : g x with
    | none =>
      have hkx : rank x = none := by rw [hrank, hx, Option.map_none]
      rw [List.filterMap_cons_none hx, ih]
      simp only [leads_cons_unranked hkx]
    | some cx =>
      have hkx : rank x = some (key cx) := by rw [hrank, hx, Option.map_some]
      rw [List.filterMap_cons_some hx, List.insertionSort_cons, head?_orderedInsert]
      cases hs : ((l.filterMap g).insertionSort r).head? with
      | none =>
        have hno : ∀ b ∈ l, rank b = none := by
          have hnil := (List.perm_insertionSort r (l.filterMap g)).symm
          rw [List.head?_eq_none_iff.mp hs, List.perm_nil, List.filterMap_eq_nil_iff] at hnil
          intro b hb
          rw [hrank, hnil b hb, Option.map_none]
        simp only [leads_cons_alone hkx hno, exists_eq_left, hx]
      | some b =>
        obtain ⟨y, hy, hgy⟩ := (ih b).mp hs
        have hky : rank y = some (key b) := by rw [hrank, hgy, Option.map_some]
        simp only [leads_cons_ranked hy hky hkx, hr]
        split_ifs with hle
        · simp only [exists_eq_left, hx]
        · rw [← hs, ih]

end Best
