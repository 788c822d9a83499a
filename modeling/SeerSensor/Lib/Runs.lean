/-
Runs of a step function whose labels carry every choice the environment
makes: the state after a list of labels, what each step of a run is asked to
meet, and what holds in every state a run passes through.

`invariant` is the induction every safety result uses. `always_iff_meets`
turns a one-step equivalence into one about whole runs: when the property
survives a step exactly if the step meets a condition, a run is safe
throughout exactly if all its steps meet it.
-/
import Mathlib.Data.List.Basic

namespace Runs

variable {σ α : Type*}

/-- The state after the labels, when every one of them was enabled. -/
def run (step : σ → α → Option σ) : σ → List α → Option σ
  | s, [] => some s
  | s, a :: as => (step s a).bind fun s' => run step s' as

/-- Every enabled step of the run meets `C` in the state before it. -/
def Meets (step : σ → α → Option σ) (C : σ → α → Prop) : σ → List α → Prop
  | _, [] => True
  | s, a :: as => ∀ s', step s a = some s' → C s a ∧ Meets step C s' as

/-- Some step of the run was an `A`, and no step after it was a `B`. -/
def Since (step : σ → α → Option σ) (A B : σ → α → Prop) (s : σ) (as : List α) : Prop :=
  ∃ xs a ys t u, as = xs ++ a :: ys ∧ run step s xs = some t ∧ step t a = some u ∧ A t a ∧
    Meets step (fun s a => ¬ B s a) u ys

/-- `P` holds in every state the run passes through, the first included. -/
def Always (step : σ → α → Option σ) (P : σ → Prop) : σ → List α → Prop
  | s, [] => P s
  | s, a :: as => P s ∧ ∀ s', step s a = some s' → Always step P s' as

section
variable {step : σ → α → Option σ} {C : σ → α → Prop} {I P : σ → Prop}

@[simp] theorem run_nil (s : σ) : run step s [] = some s := rfl

theorem run_cons {s s' : σ} {a : α} {as : List α} :
    run step s (a :: as) = some s' ↔ ∃ t, step s a = some t ∧ run step t as = some s' := by
  simp [run, Option.bind_eq_some_iff]

theorem run_append {s s' : σ} {as bs : List α} :
    run step s (as ++ bs) = some s' ↔ ∃ t, run step s as = some t ∧ run step t bs = some s' := by
  induction as generalizing s with
  | nil => simp
  | cons a as ih =>
    simp only [List.cons_append, run_cons, ih]
    refine ⟨fun h => ?_, fun h => ?_⟩
    · obtain ⟨t, ht, u, hu, hs⟩ := h
      exact ⟨u, ⟨t, ht, hu⟩, hs⟩
    · obtain ⟨u, ⟨t, ht, hu⟩, hs⟩ := h
      exact ⟨t, ht, u, hu, hs⟩

theorem Always.head {s : σ} {as : List α} (h : Always step P s as) : P s := by
  cases as with
  | nil => exact h
  | cons a as => exact h.1

theorem Always.last {s s' : σ} {as : List α} (h : Always step P s as) (hr : run step s as = some s') :
    P s' := by
  induction as generalizing s with
  | nil => simp only [run_nil, Option.some.injEq] at hr; exact hr ▸ h
  | cons a as ih =>
    obtain ⟨t, ht, hr⟩ := run_cons.mp hr
    exact ih (h.2 t ht) hr

theorem Always.mono {Q : σ → Prop} {s : σ} {as : List α} (hPQ : ∀ s, P s → Q s)
    (h : Always step P s as) :
    Always step Q s as := by
  induction as generalizing s with
  | nil => exact hPQ s h
  | cons a as ih => exact ⟨hPQ s h.1, fun t ht => ih (h.2 t ht)⟩

theorem meets_congr {D : σ → α → Prop} (h : ∀ s a s', step s a = some s' → (C s a ↔ D s a)) {s : σ}
    {as : List α} : Meets step C s as ↔ Meets step D s as := by
  induction as generalizing s with
  | nil => exact Iff.rfl
  | cons a as ih => exact forall₂_congr fun t ht => and_congr (h s a t ht) ih

theorem meets_of_forall {D : α → Prop} {as : List α} (h : ∀ a ∈ as, D a) (s : σ) :
    Meets step (fun _ a => D a) s as := by
  induction as generalizing s with
  | nil => trivial
  | cons a as ih =>
    obtain ⟨ha, has⟩ := List.forall_mem_cons.mp h
    exact fun t _ => ⟨ha, ih has t⟩

/-- What the steps of a run preserve while they meet `C` holds throughout. -/
theorem always_of_meets (hstep : ∀ s a s', I s → C s a → step s a = some s' → I s') {s : σ}
    {as : List α} (hs : I s) (hm : Meets step C s as) : Always step I s as := by
  induction as generalizing s with
  | nil => exact hs
  | cons a as ih =>
    refine ⟨hs, fun t ht => ?_⟩
    obtain ⟨hC, hm⟩ := hm t ht
    exact ih (hstep s a t hs hC ht) hm

theorem always_of_step (hstep : ∀ s a s', I s → step s a = some s' → I s') {s : σ} (as : List α)
    (hs : I s) : Always step I s as := by
  induction as generalizing s with
  | nil => exact hs
  | cons a as ih => exact ⟨hs, fun t ht => ih (hstep s a t hs ht)⟩

theorem invariant (hstep : ∀ s a s', I s → step s a = some s' → I s') {s s' : σ} {as : List α}
    (hs : I s) (hr : run step s as = some s') : I s' :=
  (always_of_step hstep as hs).last hr

/-- When, under an invariant `I` that holds for as long as `P` does, a step keeps `P` exactly
if it meets `C`, a run keeps `P` throughout exactly if all its steps meet `C`. -/
theorem always_iff_meets (hI : ∀ s a s', I s → P s' → step s a = some s' → I s')
    (hP : ∀ s a s', I s → P s → step s a = some s' → (P s' ↔ C s a)) {s : σ} (as : List α)
    (hs : I s) (hp : P s) : Always step P s as ↔ Meets step C s as := by
  induction as generalizing s with
  | nil => exact ⟨fun _ => trivial, fun _ => hp⟩
  | cons a as ih =>
    refine ⟨fun h => ?_, fun h => ?_⟩
    · intro t ht
      have hpt := (h.2 t ht).head
      exact ⟨(hP s a t hs hp ht).mp hpt, (ih (hI s a t hs hpt ht) hpt).mp (h.2 t ht)⟩
    · refine ⟨hp, fun t ht => ?_⟩
      obtain ⟨hC, hm⟩ := h t ht
      have hpt := (hP s a t hs hp ht).mpr hC
      exact (ih (hI s a t hs hpt ht) hpt).mpr hm

theorem Since.cons {A B : σ → α → Prop} {s t : σ} {a : α} {as : List α} (ht : step s a = some t)
    (h : Since step A B t as) : Since step A B s (a :: as) := by
  obtain ⟨xs, b, ys, u, v, rfl, hxs, hb, hA, hys⟩ := h
  exact ⟨a :: xs, b, ys, u, v, rfl, run_cons.mpr ⟨t, ht, hxs⟩, hb, hA, hys⟩

/-- A flag that only an `A` raises and that a `B` clears is up at the end of a
run only if it was up all along or there was an `A` since the last `B`. -/
theorem since_of_step {A B : σ → α → Prop}
    (hstep : ∀ s a s', step s a = some s' → I s' → A s a ∨ I s ∧ ¬ B s a) {s s' : σ} {as : List α}
    (hr : run step s as = some s') (hI : I s') :
    I s ∧ Meets step (fun s a => ¬ B s a) s as ∨ Since step A B s as := by
  induction as generalizing s with
  | nil =>
    simp only [run_nil, Option.some.injEq] at hr
    exact .inl ⟨hr ▸ hI, trivial⟩
  | cons a as ih =>
    obtain ⟨t, ht, hr⟩ := run_cons.mp hr
    rcases ih hr with ⟨hIt, hm⟩ | hsince
    · rcases hstep s a t ht hIt with hA | ⟨hIs, hB⟩
      · exact .inr ⟨[], a, as, s, t, rfl, rfl, ht, hA, hm⟩
      · refine .inl ⟨hIs, fun u hu => ?_⟩
        cases ht.symm.trans hu
        exact ⟨hB, hm⟩
    · exact .inr (hsince.cons ht)

end

end Runs
