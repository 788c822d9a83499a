/-
Programs that ask an operator at a terminal. The answers are given in advance;
a program that asks more than there are does not end, and a question that is put
until the answer is accepted takes as many answers as it needs.

Three rules carry proofs through such a program. `Ensures` is what holds of the
result whenever there is one. `Accepts` is what answering nothing at every
question leads to, if it leads anywhere. `Takes` is that a number of empty
answers is enough.
-/
import Mathlib.Data.List.Basic

namespace Prompt

/-- What the operator will answer, and what was printed. -/
structure Session where
  answers : List String
  printed : List String := []

/-- A program that asks; `none` is that the answers have ended. -/
abbrev Asks (α : Type) := StateT Session Option α

variable {α β : Type}

/-- `print`. -/
def tell (line : String) : Asks Unit := modify fun s => { s with printed := s.printed ++ [line] }

/-- Ask until an answer is accepted, complaining about each that is not. -/
def askUntil (question complaint : String) (accept : String → Option α) : Asks α := fun s =>
  go s.answers s.printed
where
  go : List String → List String → Option (α × Session)
  | [], _ => none
  | a :: rest, printed =>
    match accept a with
    | some v => some (v, ⟨rest, printed ++ [question]⟩)
    | none => go rest (printed ++ [question, complaint])

/-- Ask once. -/
def ask (question : String) : Asks String := askUntil question "" some

theorem bind_some {x : Asks α} {f : α → Asks β} {s s' : Session} {b : β} :
    (x >>= f) s = some (b, s') ↔ ∃ a t, x s = some (a, t) ∧ f a t = some (b, s') := by
  show (x s).bind (fun r => f r.1 r.2) = some (b, s') ↔ _
  rw [Option.bind_eq_some_iff]
  exact ⟨fun ⟨⟨a, t⟩, h, h'⟩ => ⟨a, t, h, h'⟩, fun ⟨a, t, h, h'⟩ => ⟨⟨a, t⟩, h, h'⟩⟩

/-! ## What holds of the result -/

/-- Whatever the answers are, a result has the property. -/
def Ensures (x : Asks α) (P : α → Prop) : Prop := ∀ s a t, x s = some (a, t) → P a

section
variable {x : Asks α} {f : α → Asks β} {P : α → Prop} {Q : β → Prop} {q c : String} {accept : String → Option α}

theorem Ensures.pure {a : α} (h : P a) : Ensures (Pure.pure a) P := by
  intro s b t hb
  cases hb
  exact h

theorem Ensures.bind (hx : Ensures x P) (hf : ∀ a, P a → Ensures (f a) Q) : Ensures (x >>= f) Q := by
  intro s b t hb
  obtain ⟨a, u, ha, hb⟩ := bind_some.mp hb
  exact hf a (hx s a u ha) u b t hb

/-- What is accepted was accepted for an answer. -/
theorem Ensures.askUntil (h : ∀ a v, accept a = some v → P v) : Ensures (askUntil q c accept) P := by
  intro s v t hv
  obtain ⟨answers, printed⟩ := s
  unfold Prompt.askUntil at hv
  dsimp only at hv
  induction answers generalizing printed with
  | nil => cases hv
  | cons a rest ih =>
    cases ha : accept a with
    | some w =>
      simp only [Prompt.askUntil.go, ha, Option.some.injEq, Prod.mk.injEq] at hv
      exact hv.1 ▸ h a w ha
    | none =>
      simp only [Prompt.askUntil.go, ha] at hv
      exact ih _ hv

end

/-! ## Answering nothing -/

/-- With empty answers only, the result, if there is one, is `v`, and only empty
answers are left. -/
def Accepts (x : Asks α) (v : α) : Prop :=
  ∀ k printed a t, x ⟨List.replicate k "", printed⟩ = some (a, t) → a = v ∧ ∃ n, t.answers = List.replicate n ""

/-- `n` empty answers lead to `v`, whatever answers follow. -/
def Takes (x : Asks α) (n : Nat) (v : α) : Prop :=
  ∀ rest printed, ∃ printed', x ⟨List.replicate n "" ++ rest, printed⟩ = some (v, ⟨rest, printed'⟩)

section
variable {x : Asks α} {f : α → Asks β} {v : α} {w : β} {q c : String} {accept : String → Option α} {m n : Nat}

theorem Accepts.pure : Accepts (Pure.pure v) v := by
  intro k printed a t h
  cases h
  exact ⟨rfl, k, rfl⟩

theorem Accepts.bind (hx : Accepts x v) (hf : Accepts (f v) w) : Accepts (x >>= f) w := by
  intro k printed b t h
  obtain ⟨a, u, ha, hb⟩ := bind_some.mp h
  obtain ⟨rfl, n, hn⟩ := hx k printed a u ha
  obtain ⟨answers, printed'⟩ := u
  cases hn
  exact hf n printed' b t hb

/-- An empty answer that is not accepted is asked for again, for ever. -/
theorem Accepts.askUntil (h : ∀ u, accept "" = some u → u = v) : Accepts (askUntil q c accept) v := by
  intro k printed a t ha
  unfold Prompt.askUntil at ha
  dsimp only at ha
  induction k generalizing printed with
  | zero => cases ha
  | succ k ih =>
    rw [List.replicate_succ] at ha
    cases hacc : accept "" with
    | some u =>
      simp only [Prompt.askUntil.go, hacc, Option.some.injEq, Prod.mk.injEq] at ha
      obtain ⟨rfl, rfl⟩ := ha
      exact ⟨h _ hacc, k, rfl⟩
    | none =>
      simp only [Prompt.askUntil.go, hacc] at ha
      exact ih _ ha

theorem Takes.pure : Takes (Pure.pure v) 0 v := fun _ printed => ⟨printed, rfl⟩

theorem Takes.bind (hx : Takes x m v) (hf : Takes (f v) n w) : Takes (x >>= f) (m + n) w := by
  intro rest printed
  obtain ⟨printed₁, h₁⟩ := hx (List.replicate n "" ++ rest) printed
  obtain ⟨printed₂, h₂⟩ := hf rest printed₁
  refine ⟨printed₂, bind_some.mpr ⟨v, _, ?_, h₂⟩⟩
  rw [List.replicate_add, List.append_assoc]
  exact h₁

theorem Takes.askUntil (h : accept "" = some v) : Takes (askUntil q c accept) 1 v := by
  intro rest printed
  refine ⟨printed ++ [q], ?_⟩
  simp [Prompt.askUntil, Prompt.askUntil.go, h]

end

end Prompt
