/-
`main_loop`: poll for a drive and, when one has come, drain the backlog to it.

The loop acts on changes: a pass is made in the iteration that sees a drive
after one that saw none, and not again while the drive stays. So a file that
such a pass skipped as too young, or failed to transfer, or that the mover
staged afterwards, waits for the drive to be pulled and put back, where the
requirements have it retried and the export resume by itself. `drained_iff`
says exactly which iterations hand over every file they should.

An iteration may find any files at all in the backlog: what other programs did
since the last one is part of its input.
-/
import SeerSensor.ExportBatchFacts
import SeerSensor.Lib.Runs
import SeerSensor.Mounts

namespace SeerSensor.MainLoop

open Raise

/-- What `main_loop` reads before its loop, with the defaults. -/
structure Config where
  rotateSeconds : ℚ := 20
  mountCandidates : List String := ["/mnt/seer_external", "/mnt/SEER_EXT", "/media/seer_external"]
  minFreePct : ℚ := 2

/-- What `update_state` publishes. -/
structure StateRecord where
  drivePresent : Bool
  lastExportTs : Option String
  totalExported : Nat
  updated : String
  deriving DecidableEq

/-- The published state; `torn` is a file that does not parse. -/
inductive StateFile where
  | missing
  | torn
  | written (r : StateRecord)
  deriving DecidableEq

/-- The loop's variables, the disk and the published state. -/
structure State where
  disk : Disk
  lastDriveState : Bool := false
  totalExported : Nat := 0
  stateFile : StateFile := .missing

/-- What one iteration finds and meets. -/
structure Poll where
  files : FS
  detect : Option String := none
  mounts : Mounts
  batch : BatchInput
  exportTs : String := ""
  updated : String := ""
  stateWrite : WriteFault := .none

/-- `update_state`, which reports its errors and goes on. -/
def updateState (p : Poll) (drivePresent : Bool) (lastExportTs : Option String) (s : State) : State :=
  match p.stateWrite with
  | .none => { s with stateFile := .written ⟨drivePresent, lastExportTs, s.totalExported, p.updated⟩ }
  | .refused _ => s
  | .torn _ _ _ => { s with stateFile := .torn }

/-- A program of the disk, in the loop. -/
def onDisk {α : Type} (x : Prog Disk α) : Prog State α := fun s =>
  match x s.disk with
  | .ok a d => .ok a { s with disk := d }
  | .error e d => .error e { s with disk := d }

/-- Drive state transition: absent to present. -/
def drain (cfg : Config) (env : Env) (p : Poll) (drive : Drive) : Prog State Unit := do
  let counts ← onDisk (exportBatch env cfg.rotateSeconds p.batch drive)
  modify fun s => { s with totalExported := s.totalExported + counts.1 }
  modify (updateState p true (if counts.1 > 0 then some p.exportTs else none))

/-- The three transitions, `target` being what was detected. -/
def onTarget (cfg : Config) (env : Env) (p : Poll) (target : Option (String × Nat))
    (lastDriveState : Bool) :
    Prog State Unit :=
  match target, lastDriveState with
  | some (drivePath, _), false => drain cfg env p (p.mounts.volume drivePath)
  | none, true => modify (updateState p false none)
  | some _, true => modify (updateState p true none)
  | none, false => pure ()

/-- `detect_export_target`, as the iteration calls it. -/
def detected (cfg : Config) (p : Poll) : Option (String × Nat) :=
  detectExportTarget p.mounts cfg.minFreePct cfg.mountCandidates

/-- The body of the `try`. -/
def pollBody (cfg : Config) (env : Env) (p : Poll) : Prog State Unit := do
  raiseIf p.detect
  let s ← get
  onTarget cfg env p (detected cfg p) s.lastDriveState
  modify fun s => { s with lastDriveState := (detected cfg p).isSome }

/-- The state an iteration starts in. -/
def State.found (s : State) (p : Poll) : State := { s with disk := { s.disk with fs := p.files } }

/-- One iteration; what it raises is logged and forgotten. -/
def iteration (cfg : Config) (env : Env) (s : State) (p : Poll) : Option State :=
  some (after (pollBody cfg env p) (s.found p))

/-- A `*.pcap*` file of the backlog that is at least `1.5 * rotate_seconds` old
when its turn would come, and whose age can be told. -/
def Eligible (cfg : Config) (p : Poll) (n : Name) : Prop :=
  ∃ f, p.files.read ⟨.backlog, n⟩ = some f ∧ globPcapAny n = true ∧ (p.batch.turn n).getmtime = none ∧
    cfg.rotateSeconds * (3 / 2) ≤ (p.batch.turn n).now - f.mtime

/-- When the iteration sees a drive and does not raise, every eligible file is
handed to `transfer_file` in it. -/
def Drained (cfg : Config) (env : Env) (s : State) (p : Poll) : Prop :=
  ∀ s', pollBody cfg env p (s.found p) = .ok () s' → detected cfg p ≠ none → ∀ n, Eligible cfg p n →
    ∃ c ∈ s'.disk.calls.drop s.disk.calls.length, c.src = ⟨.backlog, n⟩

/-- The iteration is one that drains: the last one saw no drive. Or it has
nothing to drain, or nowhere to, or does not get as far. -/
def Edge (cfg : Config) (s : State) (p : Poll) : Prop :=
  s.lastDriveState = false ∨ detected cfg p = none ∨ p.detect ≠ none ∨ ∀ n, ¬ Eligible cfg p n

/-- How an iteration goes from the state `s` it finds: the three transitions, the
one that is none, and the two places that raise. -/
inductive PollEnd (cfg : Config) (env : Env) (s : State) (p : Poll) :
    EStateM.Result String State Unit → Prop
  | undetected {e : String} : p.detect = some e → PollEnd cfg env s p (.error e s)
  /-- The pass raised, and nothing was published. -/
  | aborted {mount : String} {free : Nat} {e : String} {d : Disk} : p.detect = none →
      detected cfg p = some (mount, free) → s.lastDriveState = false →
      exportBatch env cfg.rotateSeconds p.batch (p.mounts.volume mount) s.disk = .error e d →
      PollEnd cfg env s p (.error e { s with disk := d })
  | drained {mount : String} {free : Nat} {counts : Nat × Nat} {d : Disk} : p.detect = none →
      detected cfg p = some (mount, free) → s.lastDriveState = false →
      exportBatch env cfg.rotateSeconds p.batch (p.mounts.volume mount) s.disk = .ok counts d →
      PollEnd cfg env s p (.ok ()
        { updateState p true (if counts.1 > 0 then some p.exportTs else none)
            { s with disk := d, totalExported := s.totalExported + counts.1 } with
          lastDriveState := true })
  | removed : p.detect = none → detected cfg p = none → s.lastDriveState = true →
      PollEnd cfg env s p (.ok () { updateState p false none s with lastDriveState := false })
  | stayed {found : String × Nat} : p.detect = none → detected cfg p = some found →
      s.lastDriveState = true →
      PollEnd cfg env s p (.ok () { updateState p true none s with lastDriveState := true })
  | absent : p.detect = none → detected cfg p = none → s.lastDriveState = false →
      PollEnd cfg env s p (.ok () s)

section
variable {cfg : Config} {env : Env} {s s' : State} {p : Poll} {n : Name}

theorem onDisk_ok {α : Type} {x : Prog Disk α} {a : α} {d : Disk} (h : x s.disk = .ok a d) :
    onDisk x s = .ok a { s with disk := d } := by
  simp only [onDisk, h]

theorem onDisk_error {α : Type} {x : Prog Disk α} {e : String} {d : Disk}
    (h : x s.disk = .error e d) : onDisk x s = .error e { s with disk := d } := by
  simp only [onDisk, h]

/-- What follows the detection: a branch, and then the loop remembers what it saw. -/
theorem pollBody_of_detected (cfg : Config) (env : Env) (s : State) (hdetect : p.detect = none) :
    pollBody cfg env p s = (do
      onTarget cfg env p (detected cfg p) s.lastDriveState
      modify fun s => { s with lastDriveState := (detected cfg p).isSome } : Prog State Unit) s := by
  unfold pollBody
  rw [hdetect, bind_of_ok raiseIf_none, bind_of_ok get_apply]

theorem pollBody_ends (cfg : Config) (env : Env) (s : State) (p : Poll) :
    PollEnd cfg env s p (pollBody cfg env p s) := by
  cases hdetect : p.detect with
  | some e =>
    have hraise : pollBody cfg env p s = .error e s :=
      bind_of_error (raiseIf_error.mpr ⟨hdetect, rfl⟩)
    rw [hraise]
    exact .undetected hdetect
  | none =>
    rw [pollBody_of_detected cfg env s hdetect]
    cases hseen : detected cfg p with
    | none =>
      cases hlast : s.lastDriveState with
      | true => exact .removed hdetect hseen hlast
      | false =>
        have hsame : { s with lastDriveState := false } = s := by rw [← hlast]
        show PollEnd cfg env s p (.ok () { s with lastDriveState := false })
        rw [hsame]
        exact .absent hdetect hseen hlast
    | some found =>
      cases hlast : s.lastDriveState with
      | true => exact .stayed hdetect hseen hlast
      | false =>
        cases hpass : exportBatch env cfg.rotateSeconds p.batch (p.mounts.volume found.1) s.disk with
        | error e d =>
          have hdrain : onTarget cfg env p (some found) false s = .error e { s with disk := d } :=
            bind_of_error (onDisk_error hpass)
          rw [bind_of_error hdrain]
          exact .aborted hdetect hseen hlast hpass
        | ok counts d =>
          have hdrain : onTarget cfg env p (some found) false s = .ok () _ :=
            bind_of_ok (onDisk_ok hpass)
          rw [bind_of_ok hdrain]
          exact .drained hdetect hseen hlast hpass

theorem eligible_iff : Eligible cfg p n ↔
    n ∈ backlogPcaps p.files ∧ turnActive cfg.rotateSeconds p.batch p.files n = false := by
  rw [mem_backlogPcaps]
  unfold Eligible turnActive isFileActive
  refine ⟨fun h => ?_, fun h => ?_⟩
  · obtain ⟨f, hf, hglob, hstat, hage⟩ := h
    refine ⟨⟨⟨f, hf⟩, hglob⟩, ?_⟩
    rw [hstat, hf]
    simpa using hage
  · obtain ⟨⟨⟨f, hf⟩, hglob⟩, hact⟩ := h
    cases hstat : (p.batch.turn n).getmtime with
    | some e => simp [hstat] at hact
    | none =>
      rw [hstat, hf] at hact
      exact ⟨f, hf, hglob, rfl, by simpa using hact⟩

theorem updateState_disk (drivePresent : Bool) (ts : Option String) :
    (updateState p drivePresent ts s).disk = s.disk := by
  unfold updateState
  split <;> rfl

theorem pass_calls {drive : Drive} {counts : Nat × Nat} {d : Disk}
    (hpass : exportBatch env cfg.rotateSeconds p.batch drive (s.found p).disk = .ok counts d)
    (hn : Eligible cfg p n) : ∃ c ∈ d.calls.drop s.disk.calls.length, c.src = ⟨.backlog, n⟩ := by
  obtain ⟨hmem, hact⟩ := eligible_iff.mp hn
  have hcall : turnCall env cfg.rotateSeconds p.batch (.pcap drive p.batch.date) p.files n =
      some ⟨⟨.backlog, n⟩, .pcap drive p.batch.date,
        (turnOut env p.batch (.pcap drive p.batch.date) p.files n).1.success⟩ := by
    simp only [turnCall, hact, Bool.false_eq_true, if_false]
  refine ⟨⟨⟨.backlog, n⟩, .pcap drive p.batch.date,
    (turnOut env p.batch (.pcap drive p.batch.date) p.files n).1.success⟩,
    ?_, rfl⟩
  rw [exportBatch_calls hpass]
  show _ ∈ (s.disk.calls ++ _).drop s.disk.calls.length
  rw [List.drop_left, List.mem_filterMap]
  exact ⟨n, hmem, hcall⟩

theorem drained_iff (cfg : Config) (env : Env) (s : State) (p : Poll) :
    Drained cfg env s p ↔ Edge cfg s p := by
  have hends := pollBody_ends cfg env (s.found p) p
  refine ⟨fun h => ?_, fun h s' hok hdrive n hn => ?_⟩
  · generalize hbody : pollBody cfg env p (s.found p) = out at hends
    cases hends with
    | undetected hraise => exact .inr (.inr (.inl (by simp [hraise])))
    | aborted _ _ hlast _ => exact .inl hlast
    | drained _ _ hlast _ => exact .inl hlast
    | removed _ hseen _ => exact .inr (.inl hseen)
    | absent _ hseen _ => exact .inr (.inl hseen)
    | stayed _ hseen _ =>
      -- while the drive stays an iteration calls nothing
      refine .inr (.inr (.inr fun n hn => ?_))
      obtain ⟨c, hc, -⟩ := h _ hbody (by simp [hseen]) n hn
      have hcalls : c ∈ (updateState p true none (s.found p)).disk.calls.drop s.disk.calls.length := hc
      rw [updateState_disk] at hcalls
      exact absurd hcalls (by simp [State.found])
  · rw [hok] at hends
    cases hends with
    | drained _ _ _ hpass =>
      show ∃ c ∈ (updateState p true _ _).disk.calls.drop _, _
      rw [updateState_disk]
      exact pass_calls hpass hn
    | removed _ hseen _ => exact absurd hseen hdrive
    | absent _ hseen _ => exact absurd hseen hdrive
    | stayed hdetect _ hlast =>
      rcases h with hfirst | hnone | hraise | hnothing
      · cases hfirst.symm.trans hlast
      · exact absurd hnone hdrive
      · exact absurd hdetect hraise
      · exact absurd hn (hnothing n)

end

/-- **When the backlog is drained.** In a run of the loop from any state, with
any files, drives, clock readings and transfer outcomes at each iteration,
every iteration that sees a drive and does not raise hands over every eligible
file exactly when each of them either follows one that saw no drive or has no
eligible file. -/
theorem main_loop_drains_iff (cfg : Config) (env : Env) (s : State) (polls : List Poll) :
    Runs.Meets (iteration cfg env) (Drained cfg env) s polls ↔
      Runs.Meets (iteration cfg env) (Edge cfg) s polls :=
  Runs.meets_congr fun s p _ _ => drained_iff cfg env s p

/-- An old file of the backlog and a drive, at `now`, with the copy ending as given. -/
def benchPoll (now : Time) (copy2 : CopyFault) : Poll where
  files := FS.empty.write ⟨.backlog, "a.pcap"⟩ ⟨[0x61], 0⟩
  mounts := oneMount "SEER_EXT"
  batch := { date := "20260101", turn := fun _ => { now := now, transfer := { copy2 := copy2 } } }

/-- The copy fails once; two seconds later the drive is still there, and the
file is not tried again. -/
theorem main_loop_never_retries :
    ¬ Runs.Meets (iteration {} benchEnv) (Drained {} benchEnv) { disk := { fs := .empty } }
      [benchPoll 100 (.refused "[Errno 5] Input/output error"), benchPoll 102 .none] := by
  intro h
  obtain ⟨-, h⟩ := h _ rfl
  obtain ⟨h, -⟩ := h _ rfl
  rcases (drained_iff _ _ _ _).mp h with hlast | hnone | hraise | hnothing
  · revert hlast; decide +kernel
  · revert hnone; decide +kernel
  · exact hraise rfl
  · exact hnothing "a.pcap" ⟨⟨[0x61], 0⟩, by decide, by decide, rfl, by decide +kernel⟩

end SeerSensor.MainLoop
