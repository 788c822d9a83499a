/-
The exporter's lock file, operation by operation. `acquire_lock` looks, reads,
probes, unlinks, opens and writes in separate steps, any number of processes
interleave them, and a process may die between any two.

The lock works as long as taking it is one act. Between the decision to take
it (there is no file, or its text is no number, or the probe failed) and the
write of its own PID, a process is a claimant the others cannot see: the file
is not there, or empty, or still the old one. Two claimants at once both
return True, and so do a claimant and a holder whose file is taken for stale.
`exporter_exclusive` says that nothing else goes wrong.
-/
import Mathlib.Logic.Function.Basic
import SeerSensor.Lib.PyStr
import SeerSensor.Lib.Runs

namespace SeerSensor.Lock

abbrev Pid := Nat

abbrev Inode := Nat

/-- `int(f.read().strip())`; `none` is a `ValueError`. -/
def pidOf (text : String) : Option Int := PyStr.int (PyStr.strip text)

/-- Where a process is in `main`. -/
inductive Pc where
  /-- Not running: not started, exited or crashed. -/
  | idle
  | start
  /-- The file was there. -/
  | found
  /-- Its text was a number. -/
  | probe (pid : Int)
  /-- Inside the `except`, before the `unlink`. -/
  | stale
  /-- About to create the file. -/
  | free
  /-- The file is open for writing, and empty. -/
  | opened (i : Inode)
  /-- `acquire_lock` has returned True and `release_lock` has not run. -/
  | holding
  deriving DecidableEq

/-- `LOCK_FILE` names an inode or nothing; a process that has it open keeps its
inode whatever happens to the name. -/
structure State where
  path : Option Inode
  text : Inode → String
  next : Inode
  pc : Pid → Pc

/-- One operation of a process, or its end. -/
inductive Act where
  | launch
  | pathExists
  | read
  /-- `os.kill(pid, 0)` returns, or raises for whatever reason. -/
  | kill (ok : Bool)
  | unlink
  | openW
  | write
  | release
  | crash
  deriving DecidableEq

/-- The process `p` goes on to `pc`. -/
def State.goto (s : State) (p : Pid) (pc : Pc) : State := { s with pc := Function.update s.pc p pc }

/-- Open for writing: truncate the file that is there or create one. -/
def State.openW (s : State) : Inode × State :=
  match s.path with
  | some i => (i, { s with text := Function.update s.text i "" })
  | none => (s.next, { s with
      path := some s.next
      text := Function.update s.text s.next ""
      next := s.next + 1 })

/-- One operation of the process `p`. -/
def step (s : State) : Pid × Act → Option State
  | (p, .crash) => some (s.goto p .idle)
  | (p, a) =>
    match s.pc p, a with
    | .idle, .launch => some (s.goto p .start)
    | .start, .pathExists => some (s.goto p (if s.path.isSome then .found else .free))
    | .found, .read =>
      -- a file that has gone raises `FileNotFoundError`, which is an `OSError`
      some (s.goto p (match s.path.bind fun i => pidOf (s.text i) with
        | some q => .probe q
        | none => .stale))
    | .probe _, .kill ok => some (s.goto p (if ok then .idle else .stale))
    | .stale, .unlink =>
      match s.path with
      | some _ => some ({ s with path := none }.goto p .free)
      -- raised inside the handler, so nothing catches it
      | none => some (s.goto p .idle)
    | .free, .openW => some (s.openW.2.goto p (.opened s.openW.1))
    | .opened i, .write =>
      some ({ s with text := Function.update s.text i (toString p) }.goto p .holding)
    | .holding, .release => some ({ s with path := none }.goto p .idle)
    | _, _ => none

/-- No process runs yet; the file may be left over from any time before. -/
def Start (s : State) : Prop := ∀ p, s.pc p = .idle

/-- At most one process is past `acquire_lock`. -/
def Exclusive (s : State) : Prop := ∀ p q, s.pc p = .holding → s.pc q = .holding → p = q

/-- From the decision to take the lock to the write of the PID. -/
def Pc.claims : Pc → Bool
  | .stale | .free | .opened _ => true
  | _ => false

/-- A claimant or the holder. -/
def Pc.takes (pc : Pc) : Bool := pc.claims || pc = .holding

/-- Nobody else is a claimant. -/
def Alone (s : State) (p : Pid) : Prop := ∀ q, q ≠ p → (s.pc q).claims = false

/-- **Taking the lock is one act.** Where `p` decides to take it, no other
process is between its own decision and its write; and where it decides on a
failed probe, the file still says what was probed, and that was no live
exporter whose probe was refused. -/
def Decides (s : State) : Pid × Act → Prop
  | (p, .pathExists) => s.path = none → Alone s p
  | (p, .read) => (s.path.bind fun i => pidOf (s.text i)) = none → Alone s p
  | (p, .kill false) => ∀ q, s.pc p = .probe q → Alone s p ∧
      (s.path.bind fun i => pidOf (s.text i)) = some q ∧ ∀ r : Pid, q = r → s.pc r = .idle
  | _ => True

theorem pidOf_toString (p : Pid) : pidOf (toString p) = some (p : Int) := by
  rw [pidOf, PyStr.strip_of_without (PyStr.toString_without_space p), PyStr.int_toString]

/-! ## What an operation does -/

section
variable {s s' : State} {p q : Pid} {pc : Pc} {a : Act}

@[simp] theorem goto_pc_self : (s.goto p pc).pc p = pc := Function.update_self _ _ _

theorem goto_pc_ne (h : q ≠ p) : (s.goto p pc).pc q = s.pc q := Function.update_of_ne h _ _

/-- Every operation, with the place it starts from. -/
theorem step_cases (h : step s (p, a) = some s') :
    (∃ pc, pc.takes = false ∧ s' = s.goto p pc) ∨
    (a = .pathExists ∧ s.path = none ∧ s' = s.goto p .free) ∨
    (a = .read ∧ (s.path.bind fun i => pidOf (s.text i)) = none ∧ s' = s.goto p .stale) ∨
    (a = .kill false ∧ (∃ q, s.pc p = .probe q) ∧ s' = s.goto p .stale) ∨
    (s.pc p = .stale ∧ s' = { s with path := none }.goto p .free) ∨
    (s.pc p = .free ∧ s' = s.openW.2.goto p (.opened s.openW.1)) ∨
    (∃ i, s.pc p = .opened i ∧
      s' = { s with text := Function.update s.text i (toString p) }.goto p .holding) ∨
    (s.pc p = .holding ∧ s' = { s with path := none }.goto p .idle) := by
  cases a with
  | crash => cases h; exact .inl ⟨.idle, rfl, rfl⟩
  | launch =>
    cases hpc : s.pc p <;> simp only [step, hpc, Option.some.injEq, reduceCtorEq] at h
    exact .inl ⟨.start, rfl, h.symm⟩
  | pathExists =>
    cases hpc : s.pc p <;> simp only [step, hpc, Option.some.injEq, reduceCtorEq] at h
    cases hpath : s.path with
    | none => rw [hpath] at h; exact .inr (.inl ⟨rfl, rfl, h.symm⟩)
    | some i => rw [hpath] at h; exact .inl ⟨.found, rfl, h.symm⟩
  | read =>
    cases hpc : s.pc p <;> simp only [step, hpc, Option.some.injEq, reduceCtorEq] at h
    cases hread : s.path.bind fun i => pidOf (s.text i) with
    | none => rw [hread] at h; exact .inr (.inr (.inl ⟨rfl, rfl, h.symm⟩))
    | some q => rw [hread] at h; exact .inl ⟨.probe q, rfl, h.symm⟩
  | kill ok =>
    cases hpc : s.pc p <;> simp only [step, hpc, Option.some.injEq, reduceCtorEq] at h
    cases ok with
    | true => exact .inl ⟨.idle, rfl, h.symm⟩
    | false => exact .inr (.inr (.inr (.inl ⟨rfl, ⟨_, rfl⟩, h.symm⟩)))
  | unlink =>
    cases hpc : s.pc p <;> simp only [step, hpc, reduceCtorEq] at h
    cases hpath : s.path with
    | none => rw [hpath] at h; cases h; exact .inl ⟨.idle, rfl, rfl⟩
    | some i => rw [hpath] at h; cases h; exact .inr (.inr (.inr (.inr (.inl ⟨rfl, rfl⟩))))
  | openW =>
    cases hpc : s.pc p <;> simp only [step, hpc, Option.some.injEq, reduceCtorEq] at h
    exact .inr (.inr (.inr (.inr (.inr (.inl ⟨rfl, h.symm⟩)))))
  | write =>
    cases hpc : s.pc p <;> simp only [step, hpc, Option.some.injEq, reduceCtorEq] at h
    exact .inr (.inr (.inr (.inr (.inr (.inr (.inl ⟨_, rfl, h.symm⟩))))))
  | release =>
    cases hpc : s.pc p <;> simp only [step, hpc, Option.some.injEq, reduceCtorEq] at h
    exact .inr (.inr (.inr (.inr (.inr (.inr (.inr ⟨rfl, h.symm⟩))))))

/-! ## One taker, and its file in place -/

/-- At most one process takes the lock; the holder's PID is in the file, and a
claimant that has the file open has the one that is there. -/
structure Inv (s : State) : Prop where
  one : ∀ p q, (s.pc p).takes = true → (s.pc q).takes = true → p = q
  held : ∀ p, s.pc p = .holding → ∃ i, s.path = some i ∧ s.text i = toString p
  writing : ∀ p i, s.pc p = .opened i → s.path = some i

/-- Nobody else takes the lock. -/
def Sole (s : State) (p : Pid) : Prop := ∀ q, q ≠ p → (s.pc q).takes = false

theorem Inv.sole (hs : Inv s) (hp : (s.pc p).takes = true) : Sole s p := by
  intro q hq
  by_contra htakes
  exact hq (hs.one q p (by simpa using htakes) hp)

theorem Inv.of_sole (hsole : Sole s p)
    (hheld : s.pc p = .holding → ∃ i, s.path = some i ∧ s.text i = toString p)
    (hwriting : ∀ i, s.pc p = .opened i → s.path = some i) : Inv s := by
  have hme : ∀ q, (s.pc q).takes = true → q = p := by
    intro q hq
    by_contra hne
    rw [hsole q hne] at hq
    cases hq
  refine ⟨fun q r hq hr => (hme q hq).trans (hme r hr).symm, fun q hq => ?_, fun q i hq => ?_⟩
  · obtain rfl := hme q (by rw [hq]; rfl)
    exact hheld hq
  · obtain rfl := hme q (by rw [hq]; rfl)
    exact hwriting i hq

theorem Sole.goto (hsole : Sole s p) : Sole (s.goto p pc) p := by
  intro q hq
  rw [goto_pc_ne hq]
  exact hsole q hq

theorem Inv.leave (hs : Inv s) (hpc : pc.takes = false) : Inv (s.goto p pc) := by
  have hold : ∀ q, ((s.goto p pc).pc q).takes = true → q ≠ p ∧ (s.goto p pc).pc q = s.pc q := by
    intro q hq
    have hne : q ≠ p := by
      intro he
      rw [he, goto_pc_self, hpc] at hq
      cases hq
    exact ⟨hne, goto_pc_ne hne⟩
  refine ⟨fun q r hq hr => ?_, fun q hq => ?_, fun q i hq => ?_⟩
  · rw [(hold q hq).2] at hq
    rw [(hold r hr).2] at hr
    exact hs.one q r hq hr
  · have hq' := (hold q (by rw [hq]; rfl)).2
    exact hs.held q (by rw [← hq']; exact hq)
  · have hq' := (hold q (by rw [hq]; rfl)).2
    exact hs.writing q i (by rw [← hq']; exact hq)

/-- A decision by `p`, with nobody else taking the lock. -/
theorem Inv.claim (hsole : Sole s p) (hpc : pc = .stale ∨ pc = .free) : Inv (s.goto p pc) := by
  refine Inv.of_sole hsole.goto (fun h => ?_) (fun i h => ?_)
  · rw [goto_pc_self] at h
    rcases hpc with rfl | rfl <;> cases h
  · rw [goto_pc_self] at h
    rcases hpc with rfl | rfl <;> cases h

theorem Alone.sole (h : Alone s p) (hnone : ∀ q, q ≠ p → s.pc q ≠ .holding) : Sole s p := by
  intro q hq
  simp [Pc.takes, h q hq, hnone q hq]

theorem Inv.read_holder (hs : Inv s) (hq : s.pc q = .holding) :
    (s.path.bind fun i => pidOf (s.text i)) = some (q : Int) := by
  obtain ⟨i, hpath, htext⟩ := hs.held q hq
  rw [hpath, Option.bind_some, htext, pidOf_toString]

theorem step_inv (hs : Inv s) (hc : Decides s (p, a)) (h : step s (p, a) = some s') : Inv s' := by
  rcases step_cases h with ⟨pc, hpc, rfl⟩ | ⟨rfl, hpath, rfl⟩ | ⟨rfl, hread, rfl⟩ |
    ⟨rfl, ⟨q, hq⟩, rfl⟩ | ⟨hpc, rfl⟩ | ⟨hpc, rfl⟩ | ⟨i, hpc, rfl⟩ | ⟨hpc, rfl⟩
  · exact hs.leave hpc
  · -- a holder's file would have been seen
    refine Inv.claim ((hc hpath).sole fun q _ hq => ?_) (.inr rfl)
    obtain ⟨i, hi, -⟩ := hs.held q hq
    rw [hpath] at hi
    cases hi
  · -- a holder's PID would have been read
    refine Inv.claim ((hc hread).sole fun q _ hq => ?_) (.inl rfl)
    rw [hs.read_holder hq] at hread
    cases hread
  · -- a holder would have been probed, and is alive
    obtain ⟨halone, hfile, hdead⟩ := hc q hq
    refine Inv.claim (halone.sole fun r _ hr => ?_) (.inl rfl)
    rw [hs.read_holder hr, Option.some.injEq] at hfile
    rw [hdead r hfile.symm] at hr
    cases hr
  · have hsole : Sole { s with path := none } p := hs.sole (by rw [hpc]; rfl)
    exact Inv.claim hsole (.inr rfl)
  · have hsole : Sole s p := hs.sole (by rw [hpc]; rfl)
    have hsole' : Sole s.openW.2 p := by
      unfold State.openW
      split <;> exact hsole
    have hpath : s.openW.2.path = some s.openW.1 := by
      unfold State.openW
      split
      · assumption
      · rfl
    refine Inv.of_sole hsole'.goto (fun h => ?_) (fun i h => ?_)
    · rw [goto_pc_self] at h; cases h
    · rw [goto_pc_self] at h
      cases h
      exact hpath
  · have hsole : Sole { s with text := Function.update s.text i (toString p) } p :=
      hs.sole (by rw [hpc]; rfl)
    refine Inv.of_sole hsole.goto (fun _ => ?_) (fun j h => ?_)
    · exact ⟨i, hs.writing p i hpc, Function.update_self _ _ _⟩
    · rw [goto_pc_self] at h; cases h
  · have hsole : Sole { s with path := none } p := hs.sole (by rw [hpc]; rfl)
    refine Inv.of_sole hsole.goto (fun h => ?_) (fun i h => ?_)
    · rw [goto_pc_self] at h; cases h
    · rw [goto_pc_self] at h; cases h

end

theorem Start.inv {s : State} (h : Start s) : Inv s := by
  refine ⟨fun p q hp _ => ?_, fun p hp => ?_, fun p i hp => ?_⟩
  · rw [h p] at hp; cases hp
  · rw [h p] at hp; cases hp
  · rw [h p] at hp; cases hp

/-- **Mutual exclusion of the exporter**, as far as it goes. With any number of
processes from any lock file, in every run of the single file operations with
crashes anywhere, in which every decision to take the lock is made alone, no
two processes ever hold it. -/
theorem exporter_exclusive (s : State) (hstart : Start s) (acts : List (Pid × Act))
    (hdecides : Runs.Meets step Decides s acts) : Runs.Always step Exclusive s acts := by
  have hsafe : Runs.Always step Inv s acts :=
    Runs.always_of_meets (fun s a s' hs hc h => step_inv (p := a.1) (a := a.2) hs hc h)
      hstart.inv hdecides
  refine hsafe.mono fun s hs p q hp hq => hs.one p q ?_ ?_
  · rw [hp]; rfl
  · rw [hq]; rfl

/-- No lock file, and nobody running. -/
def benchStart : State where
  path := none
  text := fun _ => ""
  next := 0
  pc := fun _ => .idle

/-- The second process comes when the first has its PID in the file. -/
theorem exporter_exclusive_second_refused :
    Runs.Always step Exclusive benchStart
      [(1, .launch), (1, .pathExists), (1, .openW), (1, .write), (2, .launch), (2, .pathExists),
        (2, .read), (2, .kill true)] := by
  refine exporter_exclusive benchStart (fun _ => rfl) _ fun s₁ h₁ => ⟨trivial, fun s₂ h₂ =>
    ⟨?_, fun s₃ h₃ => ⟨trivial, fun s₄ h₄ => ⟨trivial, fun s₅ h₅ => ⟨trivial, fun s₆ h₆ =>
    ⟨?_, fun s₇ h₇ => ⟨?_, fun s₈ h₈ => ⟨trivial, trivial⟩⟩⟩⟩⟩⟩⟩⟩
  all_goals cases h₁
  · intro _ q hq
    rw [goto_pc_ne hq]
    rfl
  all_goals
    cases h₂
    cases h₃
    cases h₄
    cases h₅
  · intro hnone
    cases hnone
  · cases h₆
    intro hnone
    exact absurd hnone (by decide +kernel)

/-- Both look before either has made the file. -/
theorem two_exporters_hold :
    ∃ s, Runs.run step benchStart
        [(1, .launch), (2, .launch), (1, .pathExists), (2, .pathExists), (1, .openW), (1, .write),
          (2, .openW), (2, .write)] =
          some s ∧
      s.pc 1 = .holding ∧ s.pc 2 = .holding := by
  refine ⟨_, rfl, ?_, ?_⟩
  · decide +kernel
  · decide +kernel

end SeerSensor.Lock
