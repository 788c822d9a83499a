/-
What a start of the exporter makes of the lock file it finds.

The file survives a crash, a kill and a reboot, with the PID of a process that
is gone or with nothing in it. `acquire_lock` takes it for stale when its text
is no number or when a signal cannot be sent to that number. But a PID is
given out again, and `kill(pid, 0)` does not ask whose process it is now: one
of the same user, the new exporter's own included, makes the lock look held,
and the service, which runs as that user and is restarted always, stays down
for as long as that process lives.
-/
import SeerSensor.Lock

namespace SeerSensor.Lock

/-- Who owns the live process with a PID. -/
abbrev Procs := Pid → Option String

/-- `os.kill(pid, 0)` by `user`: it returns for live processes of that user,
and raises `ProcessLookupError` or `PermissionError` for all others. -/
def Procs.signals (procs : Procs) (user : String) (pid : Int) : Bool :=
  decide (0 ≤ pid) && decide (procs pid.toNat = some user)

/-- The lock file's text. -/
def State.content (s : State) : Option String := s.path.map s.text

/-- The operations `acquire_lock` makes with nobody else running. -/
def acquireOps (kill : Int → Bool) (s : State) : List Act :=
  match s.content with
  | none => [.launch, .pathExists, .openW, .write]
  | some text =>
    match pidOf text with
    | none => [.launch, .pathExists, .read, .unlink, .openW, .write]
    | some q =>
      if kill q then [.launch, .pathExists, .read, .kill true]
      else [.launch, .pathExists, .read, .kill false, .unlink, .openW, .write]

section
variable {s s' : State} {p q : Pid} {pc : Pc} {a : Act} {kill : Int → Bool}

/-- What exporters leave in the file: nothing yet, or a PID. -/
def Written (s : State) : Prop := ∀ text, s.content = some text → text = "" ∨ ∃ q : Pid, text = toString q

theorem step_written (hs : Written s) (h : step s (p, a) = some s') : Written s' := by
  rcases step_cases h with ⟨pc, -, rfl⟩ | ⟨-, -, rfl⟩ | ⟨-, -, rfl⟩ | ⟨-, -, rfl⟩ | ⟨-, rfl⟩ | ⟨-, rfl⟩ |
    ⟨i, -, rfl⟩ | ⟨-, rfl⟩
  · exact hs
  · exact hs
  · exact hs
  · exact hs
  · exact fun text ht => by cases ht
  · -- the file is empty when it has just been opened
    intro text ht
    left
    unfold State.content State.goto State.openW at ht
    split at ht
    · next j hj => simpa [hj] using ht.symm
    · simpa using ht.symm
  · intro text ht
    simp only [State.content, State.goto, Option.map_eq_some_iff] at ht
    obtain ⟨j, hj, rfl⟩ := ht
    by_cases hji : j = i
    · subst hji
      exact .inr ⟨p, Function.update_self _ _ _⟩
    · rw [Function.update_of_ne hji]
      exact hs _ (by simp [State.content, hj])
  · exact fun text ht => by cases ht

/-- `p` has the lock, with its PID in the file. -/
def Holds (s : State) (p : Pid) : Prop := s.pc p = .holding ∧ s.content = some (toString p)

theorem run_free (h : s.pc p = .free) :
    ∃ s', Runs.run step s [(p, .openW), (p, .write)] = some s' ∧ Holds s' p := by
  let opened := s.openW.2.goto p (.opened s.openW.1)
  have hopen : step s (p, .openW) = some opened := by simp only [step, h, opened]
  have hwrite : step opened (p, .write) = some
      ({ opened with text := Function.update opened.text s.openW.1 (toString p) }.goto p .holding) := by
    simp only [step, opened, goto_pc_self]
  refine ⟨_, Runs.run_cons.mpr ⟨_, hopen, Runs.run_cons.mpr ⟨_, hwrite, rfl⟩⟩, goto_pc_self, ?_⟩
  have hpath : opened.path = some s.openW.1 := by
    simp only [opened, State.goto, State.openW]
    split
    · assumption
    · rfl
  simp [State.content, State.goto, hpath]

theorem run_stale {text : String} (h : s.pc p = .stale) (hfile : s.content = some text) :
    ∃ s', Runs.run step s [(p, .unlink), (p, .openW), (p, .write)] = some s' ∧ Holds s' p := by
  obtain ⟨i, hi, -⟩ := Option.map_eq_some_iff.mp hfile
  have hunlink : step s (p, .unlink) = some ({ s with path := none }.goto p .free) := by
    simp only [step, h, hi]
  obtain ⟨s', hrun, hholds⟩ := run_free (s := { s with path := none }.goto p .free) goto_pc_self
  exact ⟨s', Runs.run_cons.mpr ⟨_, hunlink, hrun⟩, hholds⟩

theorem run_read {text : String} {pc : Pc} (next : List (Pid × Act)) (hp : s.pc p = .idle)
    (hfile : s.content = some text)
    (hpc : pidOf text = none ∧ pc = .stale ∨ ∃ q, pidOf text = some q ∧ pc = .probe q) :
    Runs.run step s ((p, .launch) :: (p, .pathExists) :: (p, .read) :: next) =
      Runs.run step (s.goto p pc) next := by
  obtain ⟨i, hi, rfl⟩ := Option.map_eq_some_iff.mp hfile
  have hgoto : ∀ pc₁ pc₂, (s.goto p pc₁).goto p pc₂ = s.goto p pc₂ := by
    intro pc₁ pc₂
    simp [State.goto]
  have hlaunch : step s (p, .launch) = some (s.goto p .start) := by simp only [step, hp]
  have hlook : step (s.goto p .start) (p, .pathExists) = some (s.goto p .found) := by
    rw [← hgoto .start .found]
    simp [step, State.goto, hi]
  have hread : step (s.goto p .found) (p, .read) = some (s.goto p pc) := by
    rw [← hgoto .found pc]
    rcases hpc with ⟨hpid, rfl⟩ | ⟨q, hpid, rfl⟩
    · simp [step, State.goto, hi, hpid]
    · simp [step, State.goto, hi, hpid]
  simp only [Runs.run, hlaunch, hlook, hread, Option.bind_some]

/-- Alone, `p` gets the lock exactly when the file names no process it can signal. -/
theorem run_acquire (kill : Int → Bool) (hp : s.pc p = .idle) :
    ∃ s', Runs.run step s ((acquireOps kill s).map fun a => (p, a)) = some s' ∧
      (Holds s' p ↔ ∀ text q, s.content = some text → pidOf text = some q → kill q = false) := by
  unfold acquireOps
  cases hfile : s.content with
  | none =>
    have hpath : s.path = none := by simpa [State.content] using hfile
    have hlaunch : step s (p, .launch) = some (s.goto p .start) := by simp only [step, hp]
    have hlook : step (s.goto p .start) (p, .pathExists) = some ((s.goto p .start).goto p .free) := by
      simp [step, State.goto, hpath]
    obtain ⟨s', hrun, hholds⟩ := run_free (s := (s.goto p .start).goto p .free) goto_pc_self
    refine ⟨s', Runs.run_cons.mpr ⟨_, hlaunch, Runs.run_cons.mpr ⟨_, hlook, hrun⟩⟩, ?_⟩
    exact ⟨fun _ _ _ hnone => absurd hnone (by simp), fun _ => hholds⟩
  | some text =>
    dsimp only
    cases hpid : pidOf text with
    | none =>
      obtain ⟨s', hrun, hholds⟩ := run_stale (s := s.goto p .stale) goto_pc_self hfile
      refine ⟨s', (run_read _ hp hfile (.inl ⟨hpid, rfl⟩)).trans hrun, fun _ text' q htext hq => ?_,
        fun _ => hholds⟩
      cases htext
      cases hpid.symm.trans hq
    | some q =>
      have hread := fun next => run_read next hp hfile (.inr ⟨q, hpid, rfl⟩)
      dsimp only
      cases hkill : kill q with
      | true =>
        have hrefused : step (s.goto p (.probe q)) (p, .kill true) =
            some ((s.goto p (.probe q)).goto p .idle) := by
          simp [step]
        refine ⟨_, (hread _).trans (Runs.run_cons.mpr ⟨_, hrefused, rfl⟩), fun hholds => ?_,
          fun h => ?_⟩
        · cases hholds.1.symm.trans goto_pc_self
        · cases hkill.symm.trans (h text q rfl hpid)
      | false =>
        have hstale : step (s.goto p (.probe q)) (p, .kill false) =
            some ((s.goto p (.probe q)).goto p .stale) := by
          simp [step]
        obtain ⟨s', hrun, hholds⟩ :=
          run_stale (s := (s.goto p (.probe q)).goto p .stale) goto_pc_self hfile
        refine ⟨s', (hread _).trans (Runs.run_cons.mpr ⟨_, hstale, hrun⟩), fun _ text' q' htext hq => ?_,
          fun _ => hholds⟩
        cases htext
        cases hpid.symm.trans hq
        exact hkill

end

/-- **When a stale lock does not keep the exporter down.** After any history of
exporters, none of which is alive any more, and with the PIDs given out again
in any way: a new exporter `p` gets the lock, with its PID in the file,
exactly when the file does not hold the PID of a live process of the same
user. -/
theorem stale_lock_recovered_iff (s₀ s : State) (history : List (Pid × Act)) (procs : Procs)
    (user : String) (p : Pid) (hnone : s₀.path = none)
    (hrun : Runs.run step s₀ history = some s) (hdead : ∀ q, s.pc q = .idle) :
    ∃ s', Runs.run step s ((acquireOps (procs.signals user) s).map fun a => (p, a)) = some s' ∧
      (Holds s' p ↔ ∀ q : Pid, s.content = some (toString q) → procs q ≠ some user) := by
  obtain ⟨s', hacquire, hholds⟩ := run_acquire (procs.signals user) (hdead p)
  refine ⟨s', hacquire, hholds.trans ⟨fun h q hq hlive => ?_, fun h text q htext hpid => ?_⟩⟩
  · have hsilent := h _ q hq (pidOf_toString q)
    simp [Procs.signals, hlive] at hsilent
  · have hbegin : Written s₀ := fun _ ht => by simp [State.content, hnone] at ht
    have hwritten : Written s := Runs.invariant (fun _ _ _ => step_written) hbegin hrun
    rcases hwritten text htext with rfl | ⟨r, rfl⟩
    · cases hpid
    · rw [pidOf_toString, Option.some.injEq] at hpid
      subst hpid
      simpa [Procs.signals] using h r htext

/-- An exporter with PID 7 that takes the lock and crashes. -/
def benchCrash : List (Pid × Act) :=
  [(7, .launch), (7, .pathExists), (7, .openW), (7, .write), (7, .crash)]

theorem benchCrash_leaves : ∃ s, Runs.run step benchStart benchCrash = some s ∧
    (∀ q, s.pc q = .idle) ∧ s.content = some (toString 7) := by
  refine ⟨_, rfl, fun q => ?_, by decide +kernel⟩
  simp [State.goto, State.openW, benchStart]

/-- PID 7 now belongs to the capture process, of the same user. -/
theorem stale_lock_refused :
    ∃ s s', Runs.run step benchStart benchCrash = some s ∧ (∀ q, s.pc q = .idle) ∧
      Runs.run step s ((acquireOps (Procs.signals (fun q => if q = 7 ∨ q = 8 then some "seer" else none)
        "seer") s).map fun a => (8, a)) = some s' ∧ ¬ Holds s' 8 := by
  obtain ⟨s, hrun, hdead, hfile⟩ := benchCrash_leaves
  obtain ⟨s', hacquire, hholds⟩ := run_acquire
    (Procs.signals (fun q => if q = 7 ∨ q = 8 then some "seer" else none) "seer") (hdead 8)
  refine ⟨s, s', hrun, hdead, hacquire, fun h => ?_⟩
  exact absurd (hholds.mp h _ _ hfile (pidOf_toString 7)) (by decide)

/-- Of another user it is no obstacle. -/
theorem stale_lock_recovered :
    ∃ s s', Runs.run step benchStart benchCrash = some s ∧
      Runs.run step s ((acquireOps (Procs.signals (fun q => if q = 7 then some "root" else
        if q = 8 then some "seer" else none) "seer") s).map fun a => (8, a)) = some s' ∧ Holds s' 8 := by
  obtain ⟨s, hrun, hdead, hfile⟩ := benchCrash_leaves
  obtain ⟨s', hacquire, hholds⟩ := stale_lock_recovered_iff benchStart s benchCrash
    (fun q => if q = 7 then some "root" else if q = 8 then some "seer" else none) "seer" 8 rfl hrun hdead
  refine ⟨s, s', hrun, hacquire, hholds.mpr fun q hq => ?_⟩
  rw [hfile, Option.some.injEq] at hq
  have hpid : q = 7 := by
    have heq := congrArg pidOf hq
    rw [pidOf_toString, pidOf_toString] at heq
    exact (Int.ofNat_inj.mp (Option.some.inj heq)).symm
  subst hpid
  decide

end SeerSensor.Lock
