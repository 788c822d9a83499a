/-
One system refining another: what a step does in the one, a run of the other
does too, between states that correspond. The condition is on the steps of the
concrete system; a step of it may be several of the abstract one, or none.
-/
import SeerSensor.Lib.Runs

namespace Runs

variable {σ τ α β : Type*}

/-- Every step that meets `C` is a run of `spec` between related states. -/
def Refines (step : σ → α → Option σ) (C : σ → α → Prop) (spec : τ → β → Option τ)
    (R : σ → τ → Prop) : Prop :=
  ∀ s t a s', R s t → C s a → step s a = some s' → ∃ bs t', run spec t bs = some t' ∧ R s' t'

section
variable {step : σ → α → Option σ} {C : σ → α → Prop} {spec : τ → β → Option τ} {R : σ → τ → Prop}

theorem Meets.rest {s t : σ} {as bs : List α} (h : Meets step C s (as ++ bs))
    (hr : run step s as = some t) : Meets step C t bs := by
  induction as generalizing s with
  | nil => cases hr; exact h
  | cons a as ih =>
    obtain ⟨u, hu, hr⟩ := run_cons.mp hr
    exact ih (h u hu).2 hr

theorem Meets.init {s : σ} {as bs : List α} (h : Meets step C s (as ++ bs)) : Meets step C s as := by
  induction as generalizing s with
  | nil => trivial
  | cons a as ih => exact fun u hu => ⟨(h u hu).1, ih (h u hu).2⟩

theorem Meets.mono {D : σ → α → Prop} {s : σ} {as : List α} (h : Meets step C s as)
    (hCD : ∀ s a, C s a → D s a) : Meets step D s as := by
  induction as generalizing s with
  | nil => trivial
  | cons a as ih => exact fun t ht => ⟨hCD s a (h t ht).1, ih (h t ht).2⟩

/-- From steps to runs. -/
theorem Refines.run (h : Refines step C spec R) {as : List α} {s s' : σ} {t : τ} (hR : R s t)
    (hm : Meets step C s as) (hr : run step s as = some s') :
    ∃ bs t', Runs.run spec t bs = some t' ∧ R s' t' := by
  induction as generalizing s t with
  | nil =>
    cases hr
    exact ⟨[], t, rfl, hR⟩
  | cons a as ih =>
    obtain ⟨u, hu, hr⟩ := run_cons.mp hr
    obtain ⟨hC, hm⟩ := hm u hu
    obtain ⟨bs, t₁, hbs, hR₁⟩ := h s t a u hR hC hu
    obtain ⟨cs, t₂, hcs, hR₂⟩ := ih hR₁ hm hr
    exact ⟨bs ++ cs, t₂, run_append.mpr ⟨t₁, hbs, hcs⟩, hR₂⟩

end

end Runs
