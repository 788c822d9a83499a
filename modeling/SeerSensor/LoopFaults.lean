/-
`main_loop` with everything in an iteration able to raise.

The handler of the loop logs whatever was raised and polls again, and
`last_drive_state` is assigned after the work of the iteration. So a pass over
the backlog that raised leaves the loop where it was, and the pass is made
again when a drive is next seen. `RoundEnd` lists the ways an iteration goes,
and a run keeps a record of how each `export_batch` call ended.
-/
import SeerSensor.MainLoop

namespace SeerSensor.MainLoop

open Raise

/-- An iteration, with what the steps besides the detection and the pass
raise: the lines logged on a change, `update_state` outside its own `try`,
and the sleep. A raise before the first of these is one of the detection. -/
structure Round where
  poll : Poll
  report : Option String := none
  publish : Option String := none
  sleep : Option String := none

/-- The loop, and of each `export_batch` call so far whether it returned. -/
structure Watched where
  loop : State
  passes : List Bool := []

/-- A change of the loop's own variables. -/
def onLoop (f : State → State) : Prog Watched Unit := modify fun w => { w with loop := f w.loop }

/-- The call of `export_batch`. -/
def passOver {α : Type} (x : Prog Disk α) : Prog Watched α := fun w =>
  match x w.loop.disk with
  | .ok a d => .ok a ⟨{ w.loop with disk := d }, w.passes ++ [true]⟩
  | .error e d => .error e ⟨{ w.loop with disk := d }, w.passes ++ [false]⟩

/-- The transition from absent to present. -/
def Round.drain (cfg : Config) (env : Env) (r : Round) (drive : Drive) : Prog Watched Unit := do
  let counts ← passOver (exportBatch env cfg.rotateSeconds r.poll.batch drive)
  onLoop fun s => { s with totalExported := s.totalExported + counts.1 }
  raiseIf r.report
  onLoop (updateState r.poll true (if counts.1 > 0 then some r.poll.exportTs else none))
  raiseIf r.publish

/-- The three transitions, with what can raise in them. -/
def Round.onTarget (cfg : Config) (env : Env) (r : Round) (target : Option (String × Nat))
    (lastDriveState : Bool) : Prog Watched Unit :=
  match target, lastDriveState with
  | some (drivePath, _), false => r.drain cfg env (r.poll.mounts.volume drivePath)
  | none, true => do
    raiseIf r.report
    onLoop (updateState r.poll false none)
    raiseIf r.publish
  | some _, true => do
    onLoop (updateState r.poll true none)
    raiseIf r.publish
  | none, false => pure ()

/-- The body of the `try`. -/
def Round.body (cfg : Config) (env : Env) (r : Round) : Prog Watched Unit := do
  raiseIf r.poll.detect
  let w ← get
  r.onTarget cfg env (detected cfg r.poll) w.loop.lastDriveState
  onLoop fun s => { s with lastDriveState := (detected cfg r.poll).isSome }
  raiseIf r.sleep

/-- The state an iteration starts in. -/
def Watched.found (w : Watched) (r : Round) : Watched := { w with loop := w.loop.found r.poll }

/-- One iteration; what it raises is logged and forgotten. -/
def round (cfg : Config) (env : Env) (w : Watched) (r : Round) : Option Watched :=
  some (after (r.body cfg env) (w.found r))

/-- The loop as it is entered, over any disk and any state file. -/
def Watched.start (disk : Disk) (stateFile : StateFile) : Watched :=
  { loop := { disk := disk, stateFile := stateFile } }

/-- The iteration sees a drive. -/
def Round.Detects (cfg : Config) (r : Round) : Prop :=
  r.poll.detect = none ∧ detected cfg r.poll ≠ none

/-- The iteration saw no drive and raised nothing. -/
def Absent (cfg : Config) (env : Env) (w : Watched) (r : Round) : Prop :=
  detected cfg r.poll = none ∧ ∃ w', r.body cfg env (w.found r) = .ok () w'

/-- The iteration called `export_batch`, which returned, or raised. -/
def Passed (cfg : Config) (env : Env) (returned : Bool) (w : Watched) (r : Round) : Prop :=
  (after (r.body cfg env) (w.found r)).passes = w.passes ++ [returned]

/-- How an iteration goes: what it makes of `last_drive_state` and of the record. -/
inductive RoundEnd (cfg : Config) (env : Env) (w : Watched) (r : Round) : Watched → Prop
  | undetected {w' : Watched} : r.poll.detect ≠ none →
      w'.loop.lastDriveState = w.loop.lastDriveState → w'.passes = w.passes →
      RoundEnd cfg env w r w'
  /-- The pass raised: `last_drive_state` is still what it was. -/
  | aborted {w' : Watched} : r.Detects cfg → w.loop.lastDriveState = false →
      w'.loop.lastDriveState = false → w'.passes = w.passes ++ [false] → RoundEnd cfg env w r w'
  | drained {w' : Watched} : r.Detects cfg → w.loop.lastDriveState = false →
      w'.passes = w.passes ++ [true] → RoundEnd cfg env w r w'
  /-- No pass was due. When the drive was gone, and nothing was raised, that is
  what the loop remembers. -/
  | passed {w' : Watched} : (r.Detects cfg → w.loop.lastDriveState = true) →
      w'.loop.lastDriveState ≤ w.loop.lastDriveState →
      (Absent cfg env w r → w'.loop.lastDriveState = false) → w'.passes = w.passes →
      RoundEnd cfg env w r w'

section
variable {cfg : Config} {env : Env} {w w' : Watched} {r : Round}

theorem updateState_lastDriveState (p : Poll) (drivePresent : Bool) (ts : Option String) (s : State) :
    (updateState p drivePresent ts s).lastDriveState = s.lastDriveState := by
  unfold updateState
  split <;> rfl

/-- Neither the record nor what the loop remembers is touched. -/
def Keeps (w w' : Watched) : Prop :=
  w'.loop.lastDriveState = w.loop.lastDriveState ∧ w'.passes = w.passes

theorem Keeps.refl (w : Watched) : Keeps w w := ⟨rfl, rfl⟩

theorem Keeps.trans (u v w : Watched) (h₁ : Keeps u v) (h₂ : Keeps v w) : Keeps u w :=
  ⟨h₂.1.trans h₁.1, h₂.2.trans h₁.2⟩

theorem keeps_publish (drivePresent : Bool) (ts : Option String) :
    Within Keeps (do onLoop (updateState r.poll drivePresent ts); raiseIf r.publish) := by
  refine within_bind Keeps.trans ?_ fun _ => within_raiseIf Keeps.refl _
  intro w
  exact ⟨updateState_lastDriveState r.poll drivePresent ts w.loop, rfl⟩

/-- Where no pass is due, the branch taken touches neither. -/
theorem keeps_onTarget (cfg : Config) (env : Env) (r : Round) {target : Option (String × Nat)}
    {last : Bool} (h : target ≠ none → last = true) :
    Within Keeps (r.onTarget cfg env target last) := by
  cases target with
  | none =>
    cases last with
    | false => exact Keeps.refl
    | true => exact within_bind Keeps.trans (within_raiseIf Keeps.refl _) fun _ => keeps_publish _ _
  | some target =>
    cases h (by simp)
    exact keeps_publish _ _

/-- Nothing is added to the record. -/
def Uncalled (w w' : Watched) : Prop := w'.passes = w.passes

theorem Uncalled.refl (w : Watched) : Uncalled w w := rfl

theorem Uncalled.trans (u v w : Watched) (h₁ : Uncalled u v) (h₂ : Uncalled v w) : Uncalled u w :=
  Eq.trans h₂ h₁

/-- A change of the loop's own variables takes place even if the step after it
raises. -/
theorem after_onLoop (f : State → State) (fault : Option String) (w : Watched) :
    after (do onLoop f; raiseIf fault) w = { w with loop := f w.loop } := by
  cases fault <;> rfl

theorem uncalled_onLoop (f : State → State) (fault : Option String) :
    Within Uncalled (do onLoop f; raiseIf fault) := by
  intro w
  rw [after_onLoop]
  rfl

theorem passOver_ok {α : Type} {x : Prog Disk α} {a : α} {d : Disk} (h : x w.loop.disk = .ok a d) :
    passOver x w = .ok a ⟨{ w.loop with disk := d }, w.passes ++ [true]⟩ := by
  simp only [passOver, h]

theorem passOver_error {α : Type} {x : Prog Disk α} {e : String} {d : Disk}
    (h : x w.loop.disk = .error e d) :
    passOver x w = .error e ⟨{ w.loop with disk := d }, w.passes ++ [false]⟩ := by
  simp only [passOver, h]

/-- The pass is due: the record says whether it returned, and one that raised
ends the iteration there. -/
theorem drain_ends (cfg : Config) (env : Env) (r : Round) (drive : Drive) (w : Watched) :
    (∃ e t, r.drain cfg env drive w = .error e t ∧ t.loop.lastDriveState = w.loop.lastDriveState ∧
        t.passes = w.passes ++ [false]) ∨
      (after (r.drain cfg env drive) w).passes = w.passes ++ [true] := by
  cases h : exportBatch env cfg.rotateSeconds r.poll.batch drive w.loop.disk with
  | error e d => exact .inl ⟨e, _, bind_of_error (passOver_error h), rfl, rfl⟩
  | ok counts d =>
    have hrest : ∀ t, Uncalled t (after (do
        onLoop fun s => { s with totalExported := s.totalExported + counts.1 }
        raiseIf r.report
        onLoop (updateState r.poll true (if counts.1 > 0 then some r.poll.exportTs else none))
        raiseIf r.publish) t) :=
      within_bind Uncalled.trans (fun _ => rfl) fun _ =>
        within_bind Uncalled.trans (within_raiseIf Uncalled.refl _) fun _ => uncalled_onLoop _ _
    right
    unfold Round.drain
    rw [after_bind_ok (passOver_ok h)]
    exact hrest _

/-- What follows the branch taken: the loop remembers what it saw, and sleeps. -/
theorem body_of_detected (cfg : Config) (env : Env) (w : Watched) (hdetect : r.poll.detect = none) :
    r.body cfg env w = (do
      r.onTarget cfg env (detected cfg r.poll) w.loop.lastDriveState
      onLoop fun s => { s with lastDriveState := (detected cfg r.poll).isSome }
      raiseIf r.sleep : Prog Watched Unit) w := by
  unfold Round.body
  rw [hdetect, bind_of_ok raiseIf_none, bind_of_ok get_apply]

theorem round_due {mount : String} {free : Nat} (hdetect : r.poll.detect = none)
    (htarget : detected cfg r.poll = some (mount, free)) (hlast : w.loop.lastDriveState = false) :
    RoundEnd cfg env w r (after (r.body cfg env) (w.found r)) := by
  have hsees : r.Detects cfg := ⟨hdetect, by simp [htarget]⟩
  have hlast' : (w.found r).loop.lastDriveState = false := hlast
  have hturn : r.onTarget cfg env (detected cfg r.poll) (w.found r).loop.lastDriveState =
      r.drain cfg env (r.poll.mounts.volume mount) := by
    rw [htarget, hlast']; rfl
  have hbody := body_of_detected cfg env (w.found r) hdetect
  rw [hturn] at hbody
  rcases drain_ends cfg env r (r.poll.mounts.volume mount) (w.found r) with
    ⟨e, t, herr, hkept, hpasses⟩ | hpasses
  · have hend : after (r.body cfg env) (w.found r) = t :=
      after_error (hbody.trans (bind_of_error herr))
    rw [hend]
    exact .aborted hsees hlast (hkept.trans hlast) hpasses
  · have hafter : after (r.body cfg env) (w.found r) = after (do
        r.drain cfg env (r.poll.mounts.volume mount)
        onLoop fun s => { s with lastDriveState := (detected cfg r.poll).isSome }
        raiseIf r.sleep : Prog Watched Unit) (w.found r) := by
      simp only [after, hbody]
    refine .drained hsees hlast (Eq.trans ?_ hpasses)
    rw [hafter]
    exact within_rest Uncalled.refl (fun _ => uncalled_onLoop _ _) (w.found r)

theorem round_idle (hdetect : r.poll.detect = none)
    (hidle : detected cfg r.poll ≠ none → w.loop.lastDriveState = true) :
    RoundEnd cfg env w r (after (r.body cfg env) (w.found r)) := by
  have hbody := body_of_detected cfg env (w.found r) hdetect
  have hkeeps := keeps_onTarget cfg env r hidle (w.found r)
  cases hturn : r.onTarget cfg env (detected cfg r.poll) w.loop.lastDriveState (w.found r) with
  | error e t =>
    rw [after_error hturn] at hkeeps
    have hraised : r.body cfg env (w.found r) = .error e t := hbody.trans (bind_of_error hturn)
    rw [after_error hraised]
    refine .passed (fun h => hidle h.2) (le_of_eq hkeeps.1) (fun habsent => ?_) hkeeps.2
    obtain ⟨_, w', hok⟩ := habsent
    cases hraised.symm.trans hok
  | ok u t =>
    rw [after_ok hturn] at hkeeps
    have hafter : after (r.body cfg env) (w.found r) =
        { t with loop := { t.loop with lastDriveState := (detected cfg r.poll).isSome } } := by
      unfold after
      rw [hbody]
      exact (after_bind_ok hturn).trans (after_onLoop _ _ t)
    rw [hafter]
    refine .passed (fun h => hidle h.2) ?_ (fun habsent => ?_) hkeeps.2
    · cases hseen : detected cfg r.poll with
      | none => exact Bool.false_le _
      | some target => simp [hidle (by simp [hseen])]
    · simp [habsent.1]

theorem round_ends (cfg : Config) (env : Env) (w : Watched) (r : Round) :
    RoundEnd cfg env w r (after (r.body cfg env) (w.found r)) := by
  cases hdetect : r.poll.detect with
  | some e =>
    have hraise : raiseIf r.poll.detect (w.found r) = .error e (w.found r) := by rw [hdetect]; rfl
    have hafter : after (r.body cfg env) (w.found r) = w.found r := after_bind_error hraise
    rw [hafter]
    exact .undetected (by simp [hdetect]) rfl rfl
  | none =>
    by_cases hidle : detected cfg r.poll ≠ none → w.loop.lastDriveState = true
    · exact round_idle hdetect hidle
    · obtain ⟨hdrive, hlast⟩ := Classical.not_imp.mp hidle
      obtain ⟨⟨mount, free⟩, htarget⟩ := Option.ne_none_iff_exists'.mp hdrive
      exact round_due hdetect htarget (Bool.eq_false_iff.mpr hlast)

theorem publish_ok {f : State → State} {fault : Option String}
    (h : (do onLoop f; raiseIf fault : Prog Watched Unit) w = .ok () w') : w'.loop = f w.loop := by
  have hend := after_onLoop f fault w
  rw [after_ok h] at hend
  rw [hend]

theorem onTarget_ok {target : Option (String × Nat)} {last : Bool}
    (h : r.onTarget cfg env target last w = .ok () w') :
    onTarget cfg env r.poll target last w.loop = .ok () w'.loop := by
  cases target with
  | none =>
    cases last with
    | false => cases h; rfl
    | true =>
      obtain ⟨_, t, hraise, hrest⟩ := bind_ok.mp h
      cases (raiseIf_ok.mp hraise).2
      rw [publish_ok hrest]
      rfl
  | some target =>
    cases last with
    | true =>
      rw [publish_ok h]
      rfl
    | false =>
      obtain ⟨counts, t, hpass, hrest⟩ := bind_ok.mp h
      obtain ⟨_, _, hset, hrest⟩ := bind_ok.mp hrest
      cases hset
      obtain ⟨_, _, hraise, hrest⟩ := bind_ok.mp hrest
      cases (raiseIf_ok.mp hraise).2
      rw [publish_ok hrest]
      have hdisk : onDisk (exportBatch env cfg.rotateSeconds r.poll.batch
          (r.poll.mounts.volume target.1)) w.loop = .ok counts t.loop := by
        unfold passOver at hpass
        split at hpass
        · next hok => cases hpass; exact onDisk_ok hok
        · cases hpass
      exact bind_of_ok hdisk

theorem body_ok (h : r.body cfg env w = .ok () w') :
    pollBody cfg env r.poll w.loop = .ok () w'.loop := by
  obtain ⟨_, _, hraise, -⟩ := bind_ok.mp h
  have hdetect := (raiseIf_ok.mp hraise).1
  rw [body_of_detected cfg env w hdetect] at h
  obtain ⟨_, t, hturn, h⟩ := bind_ok.mp h
  rw [pollBody_of_detected cfg env w.loop hdetect, bind_of_ok (onTarget_ok hturn), publish_ok h]
  rfl

/-- The loop a run watches is this one. -/
def Watches (w : Watched) (s : State) : Prop := w.loop = s

theorem matches_onLoop (f : State → State) : Matches Watches (onLoop f) (modify f) :=
  matches_modify fun w s h => by subst h; rfl

theorem matches_onLoop_quiet (f : State → State) :
    Matches Watches (do onLoop f; raiseIf none) (modify f) :=
  matches_onLoop f

theorem matches_passOver {α : Type} (x : Prog Disk α) : Matches Watches (passOver x) (onDisk x) := by
  intro w s h
  subst h
  cases hx : x w.loop.disk with
  | ok a d =>
    exact .inl ⟨a, _, { w.loop with disk := d }, passOver_ok hx, onDisk_ok hx, rfl⟩
  | error e d =>
    exact .inr ⟨e, _, { w.loop with disk := d }, passOver_error hx, onDisk_error hx, rfl⟩

theorem matches_onTarget (cfg : Config) (env : Env) (p : Poll) (target : Option (String × Nat))
    (last : Bool) :
    Matches Watches (Round.onTarget cfg env { poll := p } target last)
      (onTarget cfg env p target last) := by
  cases target with
  | none =>
    cases last with
    | false => exact matches_pure ()
    | true => exact matches_onLoop_quiet _
  | some target =>
    cases last with
    | true => exact matches_onLoop_quiet _
    | false =>
      exact matches_bind (matches_passOver _) fun counts =>
        matches_bind (matches_onLoop _) fun _ => matches_onLoop_quiet _

/-- With nothing else raising, a round is an iteration of the loop. -/
theorem round_quiet (cfg : Config) (env : Env) (w : Watched) (p : Poll) :
    (round cfg env w { poll := p }).map (·.loop) = iteration cfg env w.loop p := by
  have hbody : Matches Watches (Round.body cfg env { poll := p }) (pollBody cfg env p) := by
    refine matches_bind (matches_raiseIf _) fun _ => ?_
    intro w s h
    subst h
    rw [bind_of_ok get_apply, bind_of_ok get_apply]
    exact matches_bind (matches_onTarget cfg env p _ _) (fun _ => matches_onLoop_quiet _) w w.loop rfl
  simp only [round, iteration, Option.map_some, Option.some.injEq]
  exact hbody.after rfl

/-- `last_drive_state` is raised by a pass that returned and cleared by an
iteration that saw no drive. -/
theorem lastDriveState_raised (h : round cfg env w r = some w') (hlast : w'.loop.lastDriveState = true) :
    Passed cfg env true w r ∨ w.loop.lastDriveState = true ∧ ¬ Absent cfg env w r := by
  obtain rfl : after (r.body cfg env) (w.found r) = w' := by simpa [round] using h
  cases round_ends cfg env w r with
  | undetected hraise hkept hpasses =>
    refine .inr ⟨hkept.symm.trans hlast, fun habsent => ?_⟩
    obtain ⟨-, w', hok⟩ := habsent
    obtain ⟨_, _, hr, -⟩ := bind_ok.mp hok
    exact hraise (raiseIf_ok.mp hr).1
  | aborted hsees hbefore hafter hpasses => cases hafter.symm.trans hlast
  | drained hsees hbefore hpasses => exact .inl hpasses
  | passed hidle hle habsent hpasses =>
    refine .inr ⟨?_, fun h => ?_⟩
    · rw [hlast] at hle
      exact Bool.eq_true_of_true_le hle
    · cases (habsent h).symm.trans hlast

theorem due_of_raised (h : Passed cfg env false w r) :
    (after (r.body cfg env) (w.found r)).loop.lastDriveState = false := by
  cases round_ends cfg env w r with
  | undetected hraise hkept hpasses => exact absurd (hpasses.symm.trans h) (by simp)
  | aborted hsees hbefore hafter hpasses => exact hafter
  | drained hsees hbefore hpasses => exact absurd (hpasses.symm.trans h) (by simp)
  | passed hidle hle habsent hpasses => exact absurd (hpasses.symm.trans h) (by simp)

theorem due_of_undetected (hlast : w.loop.lastDriveState = false) (h : ¬ r.Detects cfg) :
    (after (r.body cfg env) (w.found r)).loop.lastDriveState = false := by
  cases round_ends cfg env w r with
  | undetected hraise hkept hpasses => exact hkept.trans hlast
  | aborted hsees hbefore hafter hpasses => exact hafter
  | drained hsees hbefore hpasses => exact absurd hsees h
  | passed hidle hle habsent hpasses =>
    rw [hlast] at hle
    exact Bool.eq_false_of_le_false hle

theorem passed_of_due (hlast : w.loop.lastDriveState = false) (h : r.Detects cfg) :
    ∃ returned, Passed cfg env returned w r := by
  cases round_ends cfg env w r with
  | undetected hraise hkept hpasses => exact absurd h.1 hraise
  | aborted hsees hbefore hafter hpasses => exact ⟨false, hpasses⟩
  | drained hsees hbefore hpasses => exact ⟨true, hpasses⟩
  | passed hidle hle habsent hpasses => cases hlast.symm.trans (hidle h)

end

/-- **A drain that was aborted is not taken for done.** In every run of the
loop, whatever is detected and whatever raises: when an iteration starts with
`last_drive_state` true, some `export_batch` returned, and since then no
iteration has completed without a drive. And after an `export_batch` that
raised, the next iteration that sees a drive calls it again. -/
theorem aborted_drain_not_done (cfg : Config) (env : Env) (disk : Disk) (stateFile : StateFile)
    (rounds : List Round) (w : Watched)
    (hrun : Runs.run (round cfg env) (.start disk stateFile) rounds = some w) :
    (w.loop.lastDriveState = true →
      Runs.Since (round cfg env) (Passed cfg env true) (Absent cfg env) (.start disk stateFile) rounds) ∧
    ∀ (r : Round) (gap : List Round) (q : Round) (v x : Watched),
      Passed cfg env false w r → round cfg env w r = some v →
      Runs.run (round cfg env) v gap = some x → (∀ g ∈ gap, ¬ g.Detects cfg) → q.Detects cfg →
      ∃ returned, Passed cfg env returned x q := by
  refine ⟨fun hlast => ?_, fun r gap q v x hraised hv hgap hnone hq => ?_⟩
  · rcases Runs.since_of_step (I := fun w => w.loop.lastDriveState = true)
      (fun _ _ _ => lastDriveState_raised) hrun hlast with ⟨hstart, -⟩ | hsince
    · cases hstart
    · exact hsince
  · obtain rfl : after (r.body cfg env) (w.found r) = v := by simpa [round] using hv
    -- nothing in the gap sees a drive, so the pass stays due throughout it
    have hdue : Runs.Always (round cfg env) (fun w => w.loop.lastDriveState = false) _ gap :=
      Runs.always_of_meets (fun w g w' hw hg hstep => by
        obtain rfl : after (g.body cfg env) (w.found g) = w' := by simpa [round] using hstep
        exact due_of_undetected hw hg) (due_of_raised hraised) (Runs.meets_of_forall hnone _)
    exact passed_of_due (hdue.last hgap) hq

/-- The pass cannot list the backlog. -/
def benchAbort : Round where
  poll := { benchPoll 100 .none with
    batch := { (benchPoll 100 .none).batch with glob := some "[Errno 13] Permission denied" } }

/-- The drive is still there two seconds later. -/
def benchRetry : Round where
  poll := benchPoll 102 .none

/-- The second iteration makes the pass again, and only then is it done. -/
theorem aborted_drain_retried :
    ∃ v w, round {} benchEnv (.start { fs := .empty } .missing) benchAbort = some v ∧
      v.passes = [false] ∧ round {} benchEnv v benchRetry = some w ∧ w.loop.lastDriveState = true ∧
      (∃ returned, Passed {} benchEnv returned v benchRetry) ∧
      Runs.Since (round {} benchEnv) (Passed {} benchEnv true) (Absent {} benchEnv)
        (.start { fs := .empty } .missing) [benchAbort, benchRetry] := by
  have hraised : Passed {} benchEnv false (.start { fs := .empty } .missing) benchAbort := by
    unfold Passed; decide +kernel
  have hdrive : benchRetry.Detects {} := ⟨rfl, by decide +kernel⟩
  have hran : (Runs.run (round {} benchEnv) (.start { fs := .empty } .missing)
      [benchAbort, benchRetry]).map (fun w => w.loop.lastDriveState) = some true := by
    decide +kernel
  obtain ⟨w, hrun, hlast⟩ := Option.map_eq_some_iff.mp hran
  obtain ⟨v, hv, hrest⟩ := Runs.run_cons.mp hrun
  obtain ⟨_, hw, hend⟩ := Runs.run_cons.mp hrest
  cases hend
  have hagain := (aborted_drain_not_done {} benchEnv { fs := .empty } .missing [] _ rfl).2 benchAbort []
    benchRetry v v hraised hv rfl (by simp) hdrive
  refine ⟨v, w, hv, ?_, hw, hlast, hagain, ?_⟩
  · cases hv
    exact hraised
  · exact (aborted_drain_not_done {} benchEnv _ _ _ w hrun).1 hlast

end SeerSensor.MainLoop
