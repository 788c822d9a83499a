/-
Command lines as a POSIX shell splits them: words, in the two kinds of quotes or
without, and operators.

What needs more than that, an expansion or a backslash outside of single quotes, is
not read at all (`none`). `quote` is Python's `shlex.quote`: whatever its argument
holds, a shell takes it as part of one word, with nothing added and nothing left to
interpret (`run_quote`).
-/
import Mathlib.Data.List.Basic
import SeerSensor.Lib.Runs

namespace ShellWords

/-- Words, and the operators between them. -/
inductive Token where
  | word (w : List Char)
  | op (c : Char)
  deriving DecidableEq

/-- Which quotes the reader is in. -/
inductive Mode where
  | plain
  | single
  | double
  deriving DecidableEq

/-- What has been read, the word that is being read, and in which quotes. -/
structure Reader where
  tokens : List Token := []
  word : Option (List Char) := none
  mode : Mode := .plain
  deriving DecidableEq

/-- What needs no quotes. -/
def isSafe (c : Char) : Bool :=
  c.isAlphanum || decide (c ∈ ['_', '@', '%', '+', '=', ':', ',', '.', '/', '-'])

/-- The characters that end a word and stand for themselves. -/
def isOperator (c : Char) : Bool := decide (c ∈ ['|', '&', ';', '<', '>', '(', ')', '\n'])

/-- One more character of the word. -/
def Reader.push (r : Reader) (c : Char) : Reader := { r with word := some (r.word.getD [] ++ [c]) }

/-- Quotes begin a word even if there is nothing in them. -/
def Reader.enter (r : Reader) (m : Mode) : Reader := { r with word := some (r.word.getD []), mode := m }

/-- The word ends. -/
def Reader.flush (r : Reader) : Reader :=
  match r.word with
  | none => r
  | some w => { r with tokens := r.tokens ++ [.word w], word := none }

/-- One character; what would be expanded is not read. -/
def step (r : Reader) (c : Char) : Option Reader :=
  match r.mode with
  | .single => if c = '\x27' then some { r with mode := .plain } else some (r.push c)
  | .double =>
    if c = '"' then some { r with mode := .plain }
    else if c ∈ ['$', '\x60', '\\'] then none
    else some (r.push c)
  | .plain =>
    if c = '\x27' then some (r.enter .single)
    else if c = '"' then some (r.enter .double)
    else if c = ' ' ∨ c = '\t' then some r.flush
    else if isOperator c then some { r.flush with tokens := r.flush.tokens ++ [.op c] }
    else if isSafe c then some (r.push c)
    else none

/-- A line as the shell splits it; `none` is that it expands something or a quote is open. -/
def tokens (line : List Char) : Option (List Token) :=
  (Runs.run step {} line).bind fun r => if r.mode = .plain then some r.flush.tokens else none

/-- The commands between the bars. -/
def split : List Token → Option (List (List String))
  | [] => some [[]]
  | .word w :: ts =>
    match split ts with
    | some (c :: cs) => some ((String.ofList w :: c) :: cs)
    | _ => none
  | .op c :: ts => if c = '|' then (split ts).map ([] :: ·) else none

/-- A pipeline of simple commands, each with its words. -/
def pipeline (line : List Char) : Option (List (List String)) :=
  ((tokens line).bind split).filter fun cs => cs.all (· ≠ [])

/-- What an expansion without quotes leaves as it is: no blank to split it at, and nothing
of a pattern. -/
def isBare (s : String) : Bool := s.toList.all fun c => decide (c ∉ [' ', '\t', '\n', '*', '?', '[', '\\'])

/-- `shlex.quote`. -/
def quote (s : String) : List Char :=
  if s.toList = [] then ['\x27', '\x27']
  else if s.toList.all isSafe then s.toList
  else '\x27' :: (s.toList.flatMap fun c => if c = '\x27' then ['\x27', '"', '\x27', '"', '\x27'] else [c]) ++ ['\x27']

/-- Several words, with blanks between them. -/
def quoteAll (ss : List String) : List Char := [' '].intercalate (ss.map quote)

/-- Commands with bars between them. -/
def pipes (first : List String) : List (List String) → List Token
  | [] => first.map fun a => .word a.toList
  | c :: others => first.map (fun a => .word a.toList) ++ .op '|' :: pipes c others

theorem newline_not_mem_of_isBare {s : String} (h : isBare s = true) : '\n' ∉ s.toList := by
  intro hmem
  have hno := List.all_eq_true.mp h _ hmem
  simp at hno

section
variable {ts : List Token} {w : List Char} {cs : List Char} {c : Char}

theorem step_safe (v : Option (List Char)) (hc : isSafe c = true) :
    step ⟨ts, v, .plain⟩ c = some ⟨ts, some (v.getD [] ++ [c]), .plain⟩ := by
  have hne : ∀ d : Char, isSafe d = false → c ≠ d := by
    rintro d hd rfl
    cases hc.symm.trans hd
  have hquotes : c ≠ '\x27' ∧ c ≠ '"' ∧ c ≠ ' ' ∧ c ≠ '\t' :=
    ⟨hne _ rfl, hne _ rfl, hne _ rfl, hne _ rfl⟩
  have hop : isOperator c = false := by
    simp only [isOperator, List.mem_cons, List.not_mem_nil, or_false, decide_eq_false_iff_not, not_or]
    exact ⟨hne _ rfl, hne _ rfl, hne _ rfl, hne _ rfl, hne _ rfl, hne _ rfl, hne _ rfl, hne _ rfl⟩
  simp [step, hquotes, hop, hc, Reader.push]

theorem run_safe (hcs : ∀ c ∈ cs, isSafe c = true) :
    Runs.run step ⟨ts, some w, .plain⟩ cs = some ⟨ts, some (w ++ cs), .plain⟩ := by
  induction cs generalizing w with
  | nil => simp
  | cons c cs ih =>
    obtain ⟨hc, hcs⟩ := List.forall_mem_cons.mp hcs
    refine Runs.run_cons.mpr ⟨_, step_safe (some w) hc, ?_⟩
    rw [Option.getD_some, ih hcs, List.append_assoc, List.singleton_append]

/-- In single quotes, with each of them that is text put in double ones. -/
theorem run_single :
    Runs.run step ⟨ts, some w, .single⟩
        (cs.flatMap fun c => if c = '\x27' then ['\x27', '"', '\x27', '"', '\x27'] else [c]) =
      some ⟨ts, some (w ++ cs), .single⟩ := by
  induction cs generalizing w with
  | nil => simp
  | cons c cs ih =>
    have hone : Runs.run step ⟨ts, some w, .single⟩
        (if c = '\x27' then ['\x27', '"', '\x27', '"', '\x27'] else [c]) = some ⟨ts, some (w ++ [c]), .single⟩ := by
      by_cases hc : c = '\x27'
      · subst hc
        rfl
      · simp [hc, Runs.run, step, Reader.push]
    rw [List.flatMap_cons]
    refine Runs.run_append.mpr ⟨_, hone, ?_⟩
    rw [ih, List.append_assoc, List.singleton_append]

/-- **A quoted text is read as it is**, at the end of the word there is. -/
theorem run_quote (s : String) (v : Option (List Char)) :
    Runs.run step ⟨ts, v, .plain⟩ (quote s) = some ⟨ts, some (v.getD [] ++ s.toList), .plain⟩ := by
  unfold quote
  split_ifs with hempty hsafe
  · rw [hempty, List.append_nil]
    rfl
  · rw [List.all_eq_true] at hsafe
    cases hs : s.toList with
    | nil => exact absurd hs hempty
    | cons c cs =>
      rw [hs] at hsafe
      obtain ⟨hc, hcs⟩ := List.forall_mem_cons.mp hsafe
      refine Runs.run_cons.mpr ⟨_, step_safe v hc, ?_⟩
      rw [run_safe hcs, List.append_assoc, List.singleton_append]
  · rw [List.cons_append]
    refine Runs.run_cons.mpr ⟨⟨ts, some (v.getD []), .single⟩, rfl, ?_⟩
    exact Runs.run_append.mpr ⟨_, run_single, rfl⟩

/-- The reader with more read before. -/
def Reader.behind (r : Reader) (ts : List Token) : Reader := { r with tokens := ts ++ r.tokens }

theorem step_behind (r : Reader) (c : Char) : step (r.behind ts) c = (step r c).map (·.behind ts) := by
  obtain ⟨us, v, m⟩ := r
  have hflush : (Reader.behind ⟨us, v, m⟩ ts).flush = (Reader.flush ⟨us, v, m⟩).behind ts := by
    cases v with
    | none => rfl
    | some v => simp [Reader.behind, Reader.flush]
  cases m with
  | single =>
    simp only [step, Reader.behind]
    split_ifs <;> rfl
  | double =>
    simp only [step, Reader.behind]
    split_ifs <;> rfl
  | plain =>
    simp only [step, hflush]
    simp only [Reader.behind]
    split_ifs
    · rfl
    · rfl
    · rfl
    · simp
    · rfl
    · rfl

theorem run_behind (ts : List Token) (r : Reader) (cs : List Char) :
    Runs.run step (r.behind ts) cs = (Runs.run step r cs).map (·.behind ts) := by
  induction cs generalizing r with
  | nil => rfl
  | cons c cs ih =>
    rw [Runs.run, step_behind, Runs.run]
    cases step r c with
    | none => rfl
    | some r' => exact ih r'

theorem quoteAll_cons (a s : String) (ss : List String) :
    quoteAll (a :: (ss ++ [s])) = quote a ++ ' ' :: quoteAll (ss ++ [s]) := by
  cases ss <;> simp [quoteAll, List.intercalate]

theorem run_quoteAll (ss : List String) (s : String) :
    Runs.run step ⟨ts, none, .plain⟩ (quoteAll (ss ++ [s])) =
      some ⟨ts ++ ss.map fun a => .word a.toList, some s.toList, .plain⟩ := by
  induction ss generalizing ts with
  | nil =>
    have hone : quoteAll ([] ++ [s]) = quote s := by simp [quoteAll, List.intercalate]
    rw [hone, run_quote]
    simp
  | cons a ss ih =>
    rw [List.cons_append, quoteAll_cons]
    refine Runs.run_append.mpr ⟨_, run_quote a none, ?_⟩
    refine Runs.run_cons.mpr ⟨⟨ts ++ [.word a.toList], none, .plain⟩, rfl, ?_⟩
    rw [ih]
    simp

theorem tokens_of_run {line : List Char} (h : Runs.run step {} line = some ⟨ts, some w, .plain⟩) :
    tokens line = some (ts ++ [.word w]) := by
  rw [tokens, h]
  rfl

/-- Words stand at the front of the command they are in. -/
theorem split_words (ss : List String) {us : List Token} {first : List String} {others : List (List String)}
    (hus : split us = some (first :: others)) :
    split (ss.map (fun a => .word a.toList) ++ us) = some ((ss ++ first) :: others) := by
  induction ss with
  | nil => exact hus
  | cons a ss ih => simp [split, ih]

theorem split_pipes (first : List String) (others : List (List String)) :
    split (pipes first others) = some (first :: others) := by
  induction others generalizing first with
  | nil => simpa [pipes] using split_words first (show split [] = some [[]] from rfl)
  | cons c others ih =>
    have hbar : split (.op '|' :: pipes c others) = some ([] :: c :: others) := by simp [split, ih]
    simpa [pipes] using split_words first hbar

theorem pipeline_of_tokens {line : List Char} {first : List String} {others : List (List String)}
    (h : tokens line = some (pipes first others)) (hne : ∀ c ∈ first :: others, c ≠ []) :
    pipeline line = some (first :: others) := by
  rw [pipeline, h, Option.bind_some, split_pipes, Option.filter_some, if_pos]
  simpa using hne

end

end ShellWords
