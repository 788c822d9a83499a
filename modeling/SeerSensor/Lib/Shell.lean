/-
Shell scripts and their positional parameters, under `set -eu`: a command that
fails and a parameter that is not there end the script.

The two loops over the parameters differ in what they go over. A `for` loop takes
the words as they stand when it starts, and its body sees the parameters as they
are by then; `forParams_cases` carries an invariant indexed by the words gone over.
A `while` loop on `$#` sees only what is left, and when it ends nothing is
(`whileParams_ok`, whatever its body does).
-/
import Mathlib.Data.List.Basic
import SeerSensor.Lib.Raise

namespace Shell

open Raise

/-- How a script ends before its last line. A loop that was not given enough rounds
is `unfinished`. -/
inductive Stop where
  | exit (status : Nat) (printed : List String)
  | unfinished
  deriving DecidableEq

/-- The parameters `$1`, `$2`, … and the script's own variables. -/
structure Script (V : Type) where
  params : List String
  vars : V
  deriving DecidableEq

/-- A command: it changes the script's state, or ends the script. -/
abbrev Cmd (V α : Type) := EStateM Stop (Script V) α

section
variable {V : Type}

/-- `shift`: it fails when there is no parameter. -/
def shift : Cmd V Unit := fun s =>
  match s.params with
  | [] => .error (.exit 1 []) s
  | _ :: rest => .ok () { s with params := rest }

/-- `"$1"`. -/
def first : Cmd V String := fun s =>
  match s.params with
  | [] => .error (.exit 1 ["$1: unbound variable"]) s
  | a :: _ => .ok a s

/-- An assignment. -/
def assign (f : V → V) : Cmd V Unit := modify fun s => { s with vars := f s.vars }

/-- `exit`, with what was printed. -/
def stop (status : Nat) (printed : List String) : Cmd V Unit := throw (.exit status printed)

/-- `for a in "$@"; do … done`. -/
def forParams (body : String → Cmd V Unit) : Cmd V Unit := do
  let s ← get
  s.params.forM body

/-- `while [[ $# -gt 0 ]]; do … done`, for at most so many tests. -/
def whileParams (body : Cmd V Unit) : Nat → Cmd V Unit
  | 0 => throw .unfinished
  | n + 1 => do
    let s ← get
    if s.params = [] then pure () else do
      body
      whileParams body n

/-- `case a in p*)` with `${a#p}`: what follows `p` in a word that starts with it. -/
def afterPrefix (p a : String) : Option String := (p.toList.isPrefixOf? a.toList).map String.ofList

theorem afterPrefix_eq_some {p a v : String} : afterPrefix p a = some v ↔ a = p ++ v := by
  simp only [afterPrefix, Option.map_eq_some_iff, List.isPrefixOf?_eq_some_iff_append_eq]
  constructor
  · rintro ⟨cs, hcs, rfl⟩
    rw [← String.toList_inj, String.toList_append, String.toList_ofList, hcs]
  · intro h
    exact ⟨v.toList, by rw [h, String.toList_append], String.ofList_toList⟩

section
variable {s s' : Script V} {a : String} {rest : List String} {u : Unit} {e : Stop}

theorem shift_cons (h : s.params = a :: rest) : shift s = .ok () { s with params := rest } := by
  simp [shift, h]

theorem first_cons (h : s.params = a :: rest) : first s = .ok a s := by simp [first, h]

theorem first_nil (h : s.params = []) :
    first s = .error (.exit 1 ["$1: unbound variable"]) s := by
  simp [first, h]

@[simp] theorem assign_apply (f : V → V) : assign f s = .ok () { s with vars := f s.vars } := rfl

end

/-! ## The loops -/

section
variable {s s' : Script V}

/-- An invariant of the words gone over so far, which every round keeps unless it
ends the script in a way `E` allows. -/
theorem forParams_cases {body : String → Cmd V Unit} (I : List String → Script V → Prop) (E : Stop → Prop)
    (hstep : ∀ done a rest t, s.params = done ++ a :: rest → I done t →
      (∃ t', body a t = .ok () t' ∧ I (done ++ [a]) t') ∨ ∃ e t', body a t = .error e t' ∧ E e)
    (h : I [] s) :
    (∃ s', forParams body s = .ok () s' ∧ I s.params s') ∨
      ∃ e s', forParams body s = .error e s' ∧ E e := by
  -- The words to come, from any state the words gone over lead to.
  have go : ∀ rest done t, s.params = done ++ rest → I done t →
      (∃ t', rest.forM body t = .ok () t' ∧ I s.params t') ∨ ∃ e t', rest.forM body t = .error e t' ∧ E e := by
    intro rest
    induction rest with
    | nil =>
      intro done t hs hI
      rw [List.append_nil] at hs
      exact .inl ⟨t, rfl, hs ▸ hI⟩
    | cons a rest ih =>
      intro done t hs hI
      rcases hstep done a rest t hs hI with ⟨t', hbody, hI'⟩ | ⟨e, t', hbody, hE⟩
      · have hround : (a :: rest).forM body t = rest.forM body t' := bind_of_ok hbody
        rw [hround]
        exact ih (done ++ [a]) t' (by rw [hs, List.append_assoc]; rfl) hI'
      · exact .inr ⟨e, t', bind_of_error hbody, hE⟩
  exact go s.params [] s rfl h

theorem whileParams_nil {body : Cmd V Unit} {n : Nat} (h : s.params = []) :
    whileParams body (n + 1) s = .ok () s := by
  rw [whileParams, bind_of_ok get_apply, if_pos h]
  rfl

theorem whileParams_cons {body : Cmd V Unit} {n : Nat} {a : String} {rest : List String}
    (h : s.params = a :: rest) : whileParams body (n + 1) s = (body >>= fun _ => whileParams body n) s := by
  rw [whileParams, bind_of_ok get_apply, if_neg (by simp [h])]

theorem whileParams_ok {body : Cmd V Unit} {n : Nat} {u : Unit} (h : whileParams body n s = .ok u s') :
    s'.params = [] := by
  induction n generalizing s with
  | zero => cases h
  | succ n ih =>
    cases hs : s.params with
    | nil =>
      rw [whileParams_nil hs] at h
      cases h
      exact hs
    | cons a rest =>
      rw [whileParams_cons hs] at h
      obtain ⟨_, t, _, h⟩ := bind_ok.mp h
      exact ih h

/-- The same invariant for a loop that takes one parameter a round: there is a round
for each, and no more are needed. -/
theorem whileParams_cases {body : Cmd V Unit} (I : List String → Script V → Prop) (E : Stop → Prop)
    (hstep : ∀ done a rest t, s.params = done ++ a :: rest → t.params = a :: rest → I done t →
      (∃ t', body t = .ok () t' ∧ t'.params = rest ∧ I (done ++ [a]) t') ∨ ∃ e t', body t = .error e t' ∧ E e)
    (h : I [] s) {n : Nat} (hn : s.params.length < n) :
    (∃ s', whileParams body n s = .ok () s' ∧ I s.params s') ∨
      ∃ e s', whileParams body n s = .error e s' ∧ E e := by
  have go : ∀ n rest done t, s.params = done ++ rest → t.params = rest → I done t → rest.length < n →
      (∃ t', whileParams body n t = .ok () t' ∧ I s.params t') ∨
        ∃ e t', whileParams body n t = .error e t' ∧ E e := by
    intro n
    induction n with
    | zero => intro rest done t _ _ _ hlt; omega
    | succ n ih =>
      intro rest done t hs ht hI hlt
      cases rest with
      | nil =>
        rw [List.append_nil] at hs
        exact .inl ⟨t, whileParams_nil ht, hs ▸ hI⟩
      | cons a rest =>
        rw [whileParams_cons ht]
        simp only [List.length_cons] at hlt
        rcases hstep done a rest t hs ht hI with ⟨t', hbody, ht', hI'⟩ | ⟨e, t', hbody, hE⟩
        · rw [bind_of_ok hbody]
          exact ih rest (done ++ [a]) t' (by rw [hs, List.append_assoc]; rfl) ht' hI' (by omega)
        · exact .inr ⟨e, t', bind_of_error hbody, hE⟩
  exact go n s.params [] s rfl rfl h hn

end

end

end Shell
