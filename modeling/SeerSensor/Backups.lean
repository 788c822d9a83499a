/-
`backup_yaml` and `write_yaml` over many runs of the wizard: what becomes of the
configurations that were once in place.

A run copies the file in place to `seer.yml.bak-<stamp>` and only then truncates it,
so that a run stopped anywhere leaves the old configuration in one of the two. The
backup is named by the second and copied over whatever has that name: a run in the
second of an earlier one truncates the earlier backup, and the configuration it held
is gone unless it is also somewhere else. `backups_keep_iff` says that there is no
other way to lose one, be it a dump or written by hand.
-/
import SeerSensor.Lib.Runs
import SeerSensor.Wizard

namespace SeerSensor.Backups

open Wizard (Config)

/-- `yaml.safe_dump` and `yaml.safe_load`. -/
structure Yaml (F : Type) where
  dump : Config F → List Char
  load : List Char → Option (Config F)

/-- What the runs have in common; `stamp` is the `%Y%m%d-%H%M%S` of a time. -/
structure Setup (F : Type) where
  yaml : Yaml F
  machine : Wizard.Machine F
  stamp : Nat → String

/-- Where a run is between asking its questions and returning. -/
inductive Phase (F : Type) where
  | idle
  | copying (cfg : Config F) (ts : String) (n : Nat)
  | copied (cfg : Config F)
  | writing (cfg : Config F) (n : Nat)

/-- The files that matter, the clock and the run under way. -/
structure State (F : Type) where
  /-- `seer.yml`. -/
  yaml : Option (List Char)
  /-- `seer.yml.bak-<stamp>`. -/
  bak : String → Option (List Char)
  now : Nat := 0
  phase : Phase F := .idle
  /-- The configurations that were completely in place. -/
  ever : List (List Char)

/-- The clock, a new run, and the pieces of one. -/
inductive Act where
  | tick (now : Nat)
  | start (nonInteractive : Bool) (answers : List String)
  | copy (k : Nat)
  | endCopy
  | openYaml
  | write (k : Nat)
  | finish
  /-- A signal, an exception or the power. -/
  | stop

variable {F : Type}

/-- `backup_yaml` up to the open file, or past it when there is nothing in place. -/
def backup (p : Setup F) (s : State F) (cfg : Config F) : State F :=
  match s.yaml with
  | some _ =>
    { s with
      bak := Function.update s.bak (p.stamp s.now) (some [])
      phase := .copying cfg (p.stamp s.now) 0 }
  | none => { s with phase := .copied cfg }

/-- Reads and writes are in pieces of any size. -/
def step (p : Setup F) (s : State F) : Act → Option (State F)
  | .tick now => if s.now ≤ now then some { s with now := now } else none
  | .start nonInteractive answers =>
    match s.phase, Wizard.written p.machine (s.yaml.bind p.yaml.load) nonInteractive answers with
    | .idle, some cfg => some (backup p s cfg)
    | _, _ => none
  | .copy k =>
    match s.phase, s.yaml with
    | .copying cfg ts n, some text =>
      if 0 < k ∧ n + k ≤ text.length then
        some { s with
          bak := Function.update s.bak ts (some (text.take (n + k)))
          phase := .copying cfg ts (n + k) }
      else
        none
    | _, _ => none
  | .endCopy =>
    match s.phase, s.yaml with
    | .copying cfg _ n, some text => if n = text.length then some { s with phase := .copied cfg } else none
    | _, _ => none
  | .openYaml =>
    match s.phase with
    | .copied cfg => some { s with yaml := some [], phase := .writing cfg 0 }
    | _ => none
  | .write k =>
    match s.phase with
    | .writing cfg n =>
      if 0 < k ∧ n + k ≤ (p.yaml.dump cfg).length then
        some { s with
          yaml := some ((p.yaml.dump cfg).take (n + k))
          phase := .writing cfg (n + k)
          ever := if n + k = (p.yaml.dump cfg).length then p.yaml.dump cfg :: s.ever else s.ever }
      else
        none
    | _ => none
  | .finish =>
    match s.phase with
    | .writing cfg n => if n = (p.yaml.dump cfg).length then some { s with phase := .idle } else none
    | _ => none
  | .stop => some { s with phase := .idle }

/-- Any text in place or none, and backups of earlier times or none. An empty file is no
configuration. -/
def State.start (inPlace : Option (List Char)) (bak : String → Option (List Char)) : State F where
  yaml := inPlace
  bak := bak
  ever := inPlace.toList.filter (· ≠ [])

/-- The text is in place or in a backup. -/
def Stored (s : State F) (text : List Char) : Prop := s.yaml = some text ∨ ∃ ts, s.bak ts = some text

/-- Every configuration that was ever completely in place is there or in a backup. -/
def Kept (s : State F) : Prop := ∀ text ∈ s.ever, Stored s text

/-- The text is in place, or in a backup of another name. -/
def StoredBut (ts : String) (s : State F) (text : List Char) : Prop :=
  s.yaml = some text ∨ ∃ ts' ≠ ts, s.bak ts' = some text

/-- A run that makes a backup finds nothing under its name that is not elsewhere, too. -/
def Spared (p : Setup F) (s : State F) : Act → Prop
  | .start _ _ => s.yaml ≠ none → ∀ text ∈ s.ever, s.bak (p.stamp s.now) = some text →
      StoredBut (p.stamp s.now) s text
  | _ => True

/-! ## One step -/

/-- A step and what it asks. -/
inductive Step (p : Setup F) (s : State F) : Act → State F → Prop
  | tick {now : Nat} (h : s.now ≤ now) : Step p s (.tick now) { s with now := now }
  | start {nonInteractive : Bool} {answers : List String} {cfg : Config F} {text : List Char}
    (hidle : s.phase = .idle) (hy : s.yaml = some text) :
    Step p s (.start nonInteractive answers) { s with
      bak := Function.update s.bak (p.stamp s.now) (some [])
      phase := .copying cfg (p.stamp s.now) 0 }
  | first {nonInteractive : Bool} {answers : List String} {cfg : Config F} (hidle : s.phase = .idle)
    (hy : s.yaml = none) : Step p s (.start nonInteractive answers) { s with phase := .copied cfg }
  | copy {k n : Nat} {cfg : Config F} {ts : String} {text : List Char} (hp : s.phase = .copying cfg ts n)
    (hy : s.yaml = some text) (hk : 0 < k) (hle : n + k ≤ text.length) :
    Step p s (.copy k) { s with
      bak := Function.update s.bak ts (some (text.take (n + k)))
      phase := .copying cfg ts (n + k) }
  | endCopy {cfg : Config F} {ts : String} {text : List Char} (hp : s.phase = .copying cfg ts text.length)
    (hy : s.yaml = some text) : Step p s .endCopy { s with phase := .copied cfg }
  | openYaml {cfg : Config F} (hp : s.phase = .copied cfg) :
    Step p s .openYaml { s with yaml := some [], phase := .writing cfg 0 }
  | write {k n : Nat} {cfg : Config F} (hp : s.phase = .writing cfg n) (hk : 0 < k)
    (hle : n + k ≤ (p.yaml.dump cfg).length) :
    Step p s (.write k) { s with
      yaml := some ((p.yaml.dump cfg).take (n + k))
      phase := .writing cfg (n + k)
      ever := if n + k = (p.yaml.dump cfg).length then p.yaml.dump cfg :: s.ever else s.ever }
  | finish {cfg : Config F} (hp : s.phase = .writing cfg (p.yaml.dump cfg).length) :
    Step p s .finish { s with phase := .idle }
  | stop : Step p s .stop { s with phase := .idle }

section
variable {p : Setup F} {s s' : State F} {a : Act} {cfg : Config F} {text : List Char}

theorem step_cases (h : step p s a = some s') : Step p s a s' := by
  cases a with
  | tick now =>
    simp only [step] at h
    split_ifs at h with hle
    cases h
    exact .tick hle
  | start nonInteractive answers =>
    simp only [step] at h
    split at h
    next cfg hidle hw =>
      cases h
      unfold backup
      split
      next text hy => exact .start hidle hy
      next hy => exact .first hidle hy
    next => cases h
  | copy k =>
    simp only [step] at h
    split at h
    next cfg ts n text hp hy =>
      split_ifs at h with hk
      cases h
      exact .copy hp hy hk.1 hk.2
    next => cases h
  | endCopy =>
    simp only [step] at h
    split at h
    next cfg ts n text hp hy =>
      split_ifs at h with hn
      cases h
      exact .endCopy (hn ▸ hp) hy
    next => cases h
  | openYaml =>
    simp only [step] at h
    split at h
    next cfg hp => cases h; exact .openYaml hp
    next => cases h
  | write k =>
    simp only [step] at h
    split at h
    next cfg n hp =>
      by_cases hk : 0 < k ∧ n + k ≤ (p.yaml.dump cfg).length
      · rw [if_pos hk] at h
        cases h
        exact .write hp hk.1 hk.2
      · rw [if_neg hk] at h
        cases h
    next => cases h
  | finish =>
    simp only [step] at h
    split at h
    next cfg n hp =>
      split_ifs at h with hn
      cases h
      exact .finish (hn ▸ hp)
    next => cases h
  | stop => cases h; exact .stop

/-- What a phase says about the files. -/
def Phase.Tells (p : Setup F) (s : State F) : Phase F → Prop
  | .idle => True
  | .copying _ ts n => ∀ text, s.yaml = some text → s.bak ts = some (text.take n)
  | .copied _ => ∀ text, s.yaml = some text → ∃ ts, s.bak ts = some text
  | .writing cfg n => s.yaml = some ((p.yaml.dump cfg).take n)

/-- Where the run cannot lose a text that was once in place. -/
def Phase.Holds (p : Setup F) (s : State F) (text : List Char) : Phase F → Prop
  | .idle => Stored s text
  -- not where the copy goes, which may for a while look like it
  | .copying _ ts _ => StoredBut ts s text
  | .copied _ => ∃ ts, s.bak ts = some text
  | .writing cfg n => (∃ ts, s.bak ts = some text) ∨ n = (p.yaml.dump cfg).length ∧ text = p.yaml.dump cfg

/-- What every step keeps that spares the backups. -/
structure Inv (p : Setup F) (s : State F) : Prop where
  tells : s.phase.Tells p s
  ne_nil : ∀ text ∈ s.ever, text ≠ []
  holds : ∀ text ∈ s.ever, s.phase.Holds p s text

theorem Inv.start (p : Setup F) (inPlace : Option (List Char)) (bak : String → Option (List Char)) :
    Inv p (.start inPlace bak) := by
  refine ⟨trivial, fun text h => ?_, fun text h => .inl ?_⟩
  · simpa using (List.mem_filter.mp h).2
  · show inPlace = some text
    simpa using (List.mem_filter.mp h).1

theorem Inv.tells_at {phase : Phase F} (hI : Inv p s) (hp : s.phase = phase) : phase.Tells p s :=
  hp ▸ hI.tells

theorem Inv.holds_at {phase : Phase F} (hI : Inv p s) (hp : s.phase = phase) (htext : text ∈ s.ever) :
    phase.Holds p s text :=
  hp ▸ hI.holds text htext

theorem StoredBut.stored {ts : String} (h : StoredBut ts s text) : Stored s text := by
  rcases h with hyaml | ⟨ts', -, hts'⟩
  · exact .inl hyaml
  · exact .inr ⟨ts', hts'⟩

theorem Inv.stored (hI : Inv p s) (htext : text ∈ s.ever) : Stored s text := by
  cases hp : s.phase with
  | idle => exact hI.holds_at hp htext
  | copying cfg ts n => exact StoredBut.stored (hI.holds_at hp htext)
  | copied cfg => exact .inr (hI.holds_at hp htext)
  | writing cfg n =>
    rcases hI.holds_at hp htext with hbak | ⟨rfl, rfl⟩
    · exact .inr hbak
    · exact .inl ((hI.tells_at hp).trans (by rw [List.take_length]))

theorem Inv.kept (hI : Inv p s) : Kept s := fun _ htext => hI.stored htext

theorem storedBut_of_update {ts : String} {phase : Phase F} (hne : text ≠ [])
    (h : Stored { s with bak := Function.update s.bak ts (some []), phase := phase } text) : StoredBut ts s text := by
  rcases h with hyaml | ⟨ts', hts'⟩
  · exact .inl hyaml
  · by_cases heq : ts' = ts
    · subst heq
      simp only [Function.update_self, Option.some.injEq] at hts'
      exact absurd hts'.symm hne
    · simp only [Function.update_of_ne heq] at hts'
      exact .inr ⟨ts', heq, hts'⟩

theorem StoredBut.update {ts : String} (h : StoredBut ts s text) (phase : Phase F) (b : Option (List Char)) :
    StoredBut ts { s with bak := Function.update s.bak ts b, phase := phase } text := by
  rcases h with hyaml | ⟨ts', hne, hts'⟩
  · exact .inl hyaml
  · exact .inr ⟨ts', hne, by simpa only [Function.update_of_ne hne] using hts'⟩

/-- Only the beginning of a backup asks for something. -/
theorem spared_of_kept (hI : Inv p s) (h : step p s a = some s') (hkept : Kept s') : Spared p s a := by
  cases step_cases h with
  | start hidle hy => exact fun _ text htext _ => storedBut_of_update (hI.ne_nil text htext) (hkept text htext)
  | first hidle hy => exact fun hne => absurd hy hne
  | _ => trivial

/-- The copy is complete, so that what is in place is in the backup too. -/
theorem Inv.endCopy {ts : String} (hI : Inv p s) (hp : s.phase = .copying cfg ts text.length)
    (hy : s.yaml = some text) : Inv p { s with phase := .copied cfg } := by
  have hcopied : ∀ text', s.yaml = some text' → s.bak ts = some text' := by
    intro text' hy'
    cases hy.symm.trans hy'
    simpa using hI.tells_at hp text hy
  refine ⟨fun text' hy' => ⟨ts, hcopied text' hy'⟩, hI.ne_nil, fun text' htext => ?_⟩
  rcases hI.holds_at hp htext with hyaml | ⟨ts', -, hts'⟩
  · exact ⟨ts, hcopied text' hyaml⟩
  · exact ⟨ts', hts'⟩

/-- Until the dump is whole, all that was ever in place is in a backup; with its last piece
the dump is one of them. -/
theorem Inv.write {k n : Nat} (hI : Inv p s) (hp : s.phase = .writing cfg n) (hk : 0 < k)
    (hle : n + k ≤ (p.yaml.dump cfg).length) :
    Inv p { s with
      yaml := some ((p.yaml.dump cfg).take (n + k))
      phase := .writing cfg (n + k)
      ever := if n + k = (p.yaml.dump cfg).length then p.yaml.dump cfg :: s.ever else s.ever } := by
  have hbak : ∀ text ∈ s.ever, ∃ ts, s.bak ts = some text := fun text htext =>
    (hI.holds_at hp htext).resolve_right fun hfull => by omega
  by_cases hfull : n + k = (p.yaml.dump cfg).length
  · simp only [hfull, if_true]
    refine ⟨by simp [Phase.Tells], fun text htext => ?_, fun text htext => ?_⟩
    · rcases List.mem_cons.mp htext with rfl | htext
      · exact List.length_pos_iff.mp (by omega)
      · exact hI.ne_nil text htext
    · rcases List.mem_cons.mp htext with rfl | htext
      · exact .inr ⟨rfl, rfl⟩
      · exact .inl (hbak text htext)
  · simp only [hfull, if_false]
    exact ⟨rfl, hI.ne_nil, fun text htext => .inl (hbak text htext)⟩

theorem Inv.step (hI : Inv p s) (hspared : Spared p s a) (h : step p s a = some s') : Inv p s' := by
  cases step_cases h with
  | tick =>
    refine ⟨?_, hI.ne_nil, fun text htext => ?_⟩
    · have htells := hI.tells
      cases hp : s.phase <;> rw [hp] at htells <;> exact htells
    · have hholds := hI.holds text htext
      cases hp : s.phase <;> rw [hp] at hholds <;> exact hholds
  | start hidle hy =>
    refine ⟨fun text _ => by simp, hI.ne_nil, fun text htext => ?_⟩
    refine StoredBut.update ?_ _ _
    rcases hI.stored htext with hyaml | ⟨ts, hts⟩
    · exact .inl hyaml
    · by_cases heq : ts = p.stamp s.now
      · exact hspared (by simp [hy]) text htext (heq ▸ hts)
      · exact .inr ⟨ts, heq, hts⟩
  | first hidle hy =>
    refine ⟨fun text hy' => ?_, hI.ne_nil, fun text htext => ?_⟩
    · cases hy.symm.trans hy'
    · rcases hI.stored htext with hyaml | hbak
      · cases hy.symm.trans hyaml
      · exact hbak
  | copy hp hy hk hle =>
    refine ⟨fun text hy' => ?_, hI.ne_nil, fun text htext => ?_⟩
    · cases hy.symm.trans hy'
      simp
    · exact StoredBut.update (hI.holds_at hp htext) _ _
  | endCopy hp hy => exact hI.endCopy hp hy
  | openYaml hp => exact ⟨rfl, hI.ne_nil, fun text htext => .inl (hI.holds_at hp htext)⟩
  | write hp hk hle => exact hI.write hp hk hle
  | finish hp => exact ⟨trivial, hI.ne_nil, fun text htext => hI.stored htext⟩
  | stop => exact ⟨trivial, hI.ne_nil, fun text htext => hI.stored htext⟩

end

/-- **When no configuration is lost.** For every text in place, every sequence of runs, with
any answers, any clock that does not go back and a stop at any point: every
configuration that was ever completely in place is, throughout, in place or in a backup,
exactly when each run that makes a backup finds under its name no configuration that is
nowhere else. -/
theorem backups_keep_iff (p : Setup F) (inPlace : Option (List Char)) (bak : String → Option (List Char))
    (as : List Act) :
    Runs.Always (step p) Kept (.start inPlace bak) as ↔
      Runs.Meets (step p) (Spared p) (.start inPlace bak) as :=
  Runs.always_iff_meets (I := Inv p) (fun _ _ _ hI hkept h => hI.step (spared_of_kept hI h hkept) h)
    (fun _ _ _ hI _ h => ⟨spared_of_kept hI h, fun hspared => (hI.step hspared h).kept⟩) as
    (Inv.start p inPlace bak) (Inv.start p inPlace bak).kept

/-- A dump of one key, of the length of its value. -/
def benchYaml : Yaml Nat where
  dump := fun cfg => List.replicate cfg.bufferThreshold.toNat 'a' ++ ['\n']
  load := fun _ => none

/-- Backups named by the second, the clock being in tenths of one. -/
def benchSetup : Setup Nat where
  yaml := benchYaml
  machine := Wizard.bench 4
  stamp := fun now => toString (now / 10)

/-- The operator's configuration. -/
def benchOwn : Config Nat := { Wizard.defaults Wizard.benchFloats with bufferThreshold := 9 }

/-- A non-interactive run, with a copy of `n` characters. -/
def benchRun (n : Nat) : List Act := [.start true [], .copy n, .endCopy, .openYaml, .write 5, .finish]

/-- Two runs within a second: the second backup replaces the first, and the operator's
configuration is gone. -/
theorem backup_overwritten :
    ∃ s, Runs.run (step benchSetup) (.start (some (benchYaml.dump benchOwn)) fun _ => none)
        (benchRun 10 ++ [.tick 3] ++ benchRun 5) = some s ∧
      benchYaml.dump benchOwn ∈ s.ever ∧ ¬ Stored s (benchYaml.dump benchOwn) := by
  refine ⟨_, rfl, by decide, ?_⟩
  rintro (hyaml | ⟨ts, hbak⟩)
  · exact absurd hyaml (by decide)
  · by_cases hts : ts = "0"
    · subst hts
      exact absurd hbak (by decide)
    · have hnow : benchSetup.stamp 0 = "0" ∧ benchSetup.stamp 3 = "0" := ⟨rfl, rfl⟩
      revert hbak
      simp [hts, hnow, backup, State.start]

end SeerSensor.Backups
