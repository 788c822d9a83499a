/-
Programs that change a state and may raise. A raise keeps what was done
before it: the state a program leaves is there whichever way it ends, which
is what makes a handler that only reports the error worth reasoning about.

The lemmas invert a program that returned, or raised, into the same fact
about its parts, so that a long body is peeled apart with `obtain`.
-/
import Mathlib.Logic.Basic

namespace Raise

/-- A program over `σ` that returns an `α` or raises an error text. -/
abbrev Prog (σ α : Type) := EStateM String σ α

/-- A primitive with no effect of its own: it raises what it is told to. -/
def raiseIf {σ : Type} (fault : Option String) : Prog σ Unit := fun s =>
  match fault with
  | none => .ok () s
  | some e => .error e s

/-- `try: body` with a blanket handler that turns the error into a value. -/
def attempt {σ α : Type} (body : Prog σ α) (handler : String → α) (s : σ) : α × σ :=
  match body s with
  | .ok a s' => (a, s')
  | .error e s' => (handler e, s')

/-- The state a program leaves. -/
def after {σ α : Type} (body : Prog σ α) (s : σ) : σ :=
  match body s with
  | .ok _ s' => s'
  | .error _ s' => s'

/-! ## Peeling a program apart

These hold whatever is raised. -/

section
variable {ε σ α β : Type} {s s' : σ} {e : ε}

theorem bind_ok {x : EStateM ε σ α} {f : α → EStateM ε σ β} {b : β} :
    (x >>= f) s = .ok b s' ↔ ∃ a t, x s = .ok a t ∧ f a t = .ok b s' := by
  simp only [bind, EStateM.bind]
  cases x s with
  | ok a t =>
    refine ⟨fun h => ⟨a, t, rfl, h⟩, fun h => ?_⟩
    obtain ⟨_, _, h, hf⟩ := h
    cases h
    exact hf
  | error e t => simp

theorem bind_error {x : EStateM ε σ α} {f : α → EStateM ε σ β} :
    (x >>= f) s = .error e s' ↔ x s = .error e s' ∨ ∃ a t, x s = .ok a t ∧ f a t = .error e s' := by
  simp only [bind, EStateM.bind]
  cases x s with
  | ok a t =>
    refine ⟨fun h => .inr ⟨a, t, rfl, h⟩, fun h => ?_⟩
    rcases h with h | ⟨_, _, h, hf⟩
    · cases h
    · cases h; exact hf
  | error e t => simp

theorem bind_of_ok {x : EStateM ε σ α} {f : α → EStateM ε σ β} {a : α} (h : x s = .ok a s') :
    (x >>= f) s = f a s' := by
  simp only [bind, EStateM.bind, h]

theorem bind_of_error {x : EStateM ε σ α} {f : α → EStateM ε σ β} (h : x s = .error e s') :
    (x >>= f) s = .error e s' := by
  simp only [bind, EStateM.bind, h]

theorem tryCatch_apply (x : EStateM ε σ α) (handler : ε → EStateM ε σ α) :
    (tryCatch x handler) s = match x s with
      | .ok a t => .ok a t
      | .error e t => handler e t := by
  change EStateM.tryCatch x handler s = _
  delta EStateM.tryCatch
  cases x s <;> rfl

theorem tryCatch_of_ok {x : EStateM ε σ α} {handler : ε → EStateM ε σ α} {a : α} (h : x s = .ok a s') :
    (tryCatch x handler) s = .ok a s' := by
  rw [tryCatch_apply, h]

/-- The handler starts from the state at the raise. -/
theorem tryCatch_of_error {x : EStateM ε σ α} {handler : ε → EStateM ε σ α} (h : x s = .error e s') :
    (tryCatch x handler) s = handler e s' := by
  rw [tryCatch_apply, h]

@[simp] theorem pure_apply (a : α) : (pure a : EStateM ε σ α) s = .ok a s := rfl

@[simp] theorem get_apply : (get : EStateM ε σ σ) s = .ok s s := rfl

@[simp] theorem modify_apply (f : σ → σ) : (modify f : EStateM ε σ PUnit) s = .ok () (f s) := rfl

end

section
variable {σ α β : Type} {s s' : σ} {e : String}

theorem raiseIf_ok {fault : Option String} {u : Unit} :
    raiseIf fault s = .ok u s' ↔ fault = none ∧ s' = s := by
  cases fault <;> simp [raiseIf, eq_comm]

theorem raiseIf_error {fault : Option String} :
    raiseIf fault s = .error e s' ↔ fault = some e ∧ s' = s := by
  cases fault <;> simp [raiseIf, eq_comm]

@[simp] theorem raiseIf_none : (raiseIf none : Prog σ Unit) s = .ok () s := rfl

theorem after_ok {x : Prog σ α} {a : α} (h : x s = .ok a s') : after x s = s' := by simp [after, h]

theorem after_error {x : Prog σ α} (h : x s = .error e s') : after x s = s' := by simp [after, h]

theorem after_bind_ok {x : Prog σ α} {f : α → Prog σ β} {a : α} (h : x s = .ok a s') :
    after (x >>= f) s = after (f a) s' := by
  simp only [after, bind_of_ok h]

theorem after_bind_error {x : Prog σ α} {f : α → Prog σ β} (h : x s = .error e s') :
    after (x >>= f) s = s' :=
  after_error (bind_of_error h)

/-- Whichever way the program ends, `R` relates the state before to the one it
leaves. -/
def Within (R : σ → σ → Prop) (x : Prog σ α) : Prop := ∀ s, R s (after x s)

theorem within_raiseIf {R : σ → σ → Prop} (hrefl : ∀ s, R s s) (fault : Option String) :
    Within R (raiseIf fault) := by
  intro s
  cases fault <;> exact hrefl s

theorem within_bind {R : σ → σ → Prop} (htrans : ∀ s t u, R s t → R t u → R s u) {x : Prog σ α}
    {f : α → Prog σ β} (hx : Within R x) (hf : ∀ a, Within R (f a)) : Within R (x >>= f) := by
  intro s
  have hs := hx s
  cases h : x s with
  | ok a t =>
    rw [after_ok h] at hs
    rw [after_bind_ok h]
    exact htrans s t _ hs (hf a t)
  | error e t =>
    rw [after_error h] at hs
    rw [after_bind_error h]
    exact hs

theorem within_rest {R : σ → σ → Prop} (hrefl : ∀ s, R s s) {x : Prog σ α} {f : α → Prog σ β}
    (hf : ∀ a, Within R (f a)) (s : σ) : R (after x s) (after (x >>= f) s) := by
  cases h : x s with
  | ok a t =>
    rw [after_ok h, after_bind_ok h]
    exact hf a t
  | error e t =>
    rw [after_error h, after_bind_error h]
    exact hrefl t

/-- From related states the two programs end the same way, with the same value
or error, in related states. -/
def Matches {τ : Type} (R : σ → τ → Prop) (x : Prog σ α) (y : Prog τ α) : Prop :=
  ∀ s t, R s t → (∃ a s' t', x s = .ok a s' ∧ y t = .ok a t' ∧ R s' t') ∨
    ∃ e s' t', x s = .error e s' ∧ y t = .error e t' ∧ R s' t'

section
variable {τ : Type} {R : σ → τ → Prop}

theorem matches_pure (a : α) : Matches R (pure a) (pure a) := fun s t h =>
    .inl ⟨a, s, t, rfl, rfl, h⟩

theorem matches_raiseIf (fault : Option String) : Matches R (raiseIf fault) (raiseIf fault) := by
  intro s t h
  cases fault with
  | none => exact .inl ⟨(), s, t, rfl, rfl, h⟩
  | some e => exact .inr ⟨e, s, t, rfl, rfl, h⟩

theorem matches_modify {f : σ → σ} {g : τ → τ} (hfg : ∀ s t, R s t → R (f s) (g t)) :
    Matches R (modify f : Prog σ PUnit) (modify g : Prog τ PUnit) :=
  fun s t h => .inl ⟨(), f s, g t, rfl, rfl, hfg s t h⟩

theorem matches_bind {x : Prog σ α} {y : Prog τ α} {f : α → Prog σ β} {g : α → Prog τ β}
    (hxy : Matches R x y) (hfg : ∀ a, Matches R (f a) (g a)) : Matches R (x >>= f) (y >>= g) := by
  intro s t h
  rcases hxy s t h with ⟨a, s', t', hs, ht, h'⟩ | ⟨e, s', t', hs, ht, h'⟩
  · rw [bind_of_ok hs, bind_of_ok ht]
    exact hfg a s' t' h'
  · exact .inr ⟨e, s', t', bind_of_error hs, bind_of_error ht, h'⟩

theorem Matches.after {x : Prog σ α} {y : Prog τ α} (h : Matches R x y) {t : τ} (hst : R s t) :
    R (after x s) (after y t) := by
  rcases h s t hst with ⟨a, s', t', hs, ht, h'⟩ | ⟨e, s', t', hs, ht, h'⟩
  · rw [after_ok hs, after_ok ht]; exact h'
  · rw [after_error hs, after_error ht]; exact h'

end

/-- From related states the program ends the same way, with the same value or
error, in related states. -/
def Respects (R : σ → σ → Prop) (x : Prog σ α) : Prop :=
  ∀ s t, R s t → (∃ a s' t', x s = .ok a s' ∧ x t = .ok a t' ∧ R s' t') ∨
    ∃ e s' t', x s = .error e s' ∧ x t = .error e t' ∧ R s' t'

variable {R : σ → σ → Prop}

theorem respects_pure (a : α) : Respects R (pure a : Prog σ α) := matches_pure a

theorem respects_raiseIf (fault : Option String) : Respects R (raiseIf fault) := matches_raiseIf fault

theorem respects_modify {f : σ → σ} (hf : ∀ s t, R s t → R (f s) (f t)) :
    Respects R (modify f : Prog σ PUnit) :=
  matches_modify hf

theorem respects_bind {x : Prog σ α} {f : α → Prog σ β} (hx : Respects R x)
    (hf : ∀ a, Respects R (f a)) :
    Respects R (x >>= f) :=
  matches_bind hx hf

theorem respects_tryCatch {x : Prog σ α} {handler : String → Prog σ α} (hx : Respects R x)
    (hhandler : ∀ e, Respects R (handler e)) : Respects R (tryCatch x handler) := by
  intro s t h
  rcases hx s t h with ⟨a, s', t', hs, ht, h'⟩ | ⟨e, s', t', hs, ht, h'⟩
  · exact .inl ⟨a, s', t', tryCatch_of_ok hs, tryCatch_of_ok ht, h'⟩
  · rw [tryCatch_of_error hs, tryCatch_of_error ht]
    exact hhandler e s' t' h'

theorem respects_attempt {x : Prog σ α} (hx : Respects R x) (handler : String → α) {s t : σ}
    (h : R s t) :
    (attempt x handler s).1 = (attempt x handler t).1 ∧
      R (attempt x handler s).2 (attempt x handler t).2 := by
  unfold attempt
  rcases hx s t h with ⟨a, s', t', hs, ht, h'⟩ | ⟨e, s', t', hs, ht, h'⟩
  · rw [hs, ht]; exact ⟨rfl, h'⟩
  · rw [hs, ht]; exact ⟨rfl, h'⟩

end

end Raise
