/-
What the console reads of the loop: the state file, over many runs of the
service.

An iteration writes the file on three of the four combinations of what the
last one saw and what it sees itself. The fourth, no drive and none before,
leaves the file as it is; and a service that starts again remembers no drive
while the file may still show one. Of the three writes only the one after a
pass has a time to publish, and the other two publish `None` in its place, so
that a time is readable until the next iteration that gets past detection.
-/
import SeerSensor.LoopFaults

namespace SeerSensor.MainLoop

open Raise

/-- `read_hotswap_state`; `none` is `{}`, from no file or one that does not parse. -/
def readHotswapState : StateFile → Option StateRecord
  | .written r => some r
  | .missing => none
  | .torn => none

/-- `hs_state.get("drive_present", False)`. -/
def drivePresent (stateFile : StateFile) : Bool :=
  ((readHotswapState stateFile).map (·.drivePresent)).getD false

/-- `hs_state.get("last_export_ts", None)`. -/
def lastExport (stateFile : StateFile) : Option String :=
  (readHotswapState stateFile).bind (·.lastExportTs)

/-- The life of the service: its iterations, and it being killed after one of
them and started again. -/
inductive Event where
  | round (r : Round)
  | restart

/-- One event, writes of the state file succeeding. A restart finds the disk and
the state file as they were left. -/
def service (cfg : Config) (env : Env) (w : Watched) : Event → Option Watched
  | .round r => if r.poll.stateWrite = .none then round cfg env w r else none
  | .restart => some (.start w.loop.disk w.loop.stateFile)

/-- When the iteration completes, the console is told what it detected. -/
def Current (cfg : Config) (env : Env) (w : Watched) : Event → Prop
  | .round r => ∀ w', r.body cfg env (w.found r) = .ok () w' →
      drivePresent w'.loop.stateFile = (detected cfg r.poll).isSome
  | .restart => True

/-- An iteration that gets through and has nothing to write, there being no drive
and none before, finds no drive in the file either. -/
def Agrees (cfg : Config) (w : Watched) : Event → Prop
  | .round r => r.poll.detect = none → r.sleep = none → detected cfg r.poll = none →
      w.loop.lastDriveState = false → drivePresent w.loop.stateFile = false
  | .restart => True

section
variable {cfg : Config} {env : Env} {w w' : Watched} {r : Round}

theorem updateState_written {p : Poll} (h : p.stateWrite = .none) (drivePresent : Bool)
    (ts : Option String) (s : State) :
    updateState p drivePresent ts s =
      { s with stateFile := .written ⟨drivePresent, ts, s.totalExported, p.updated⟩ } := by
  simp only [updateState, h]

theorem body_absent (env : Env) (hdetect : r.poll.detect = none) (hsleep : r.sleep = none)
    (hseen : detected cfg r.poll = none) (hlast : w.loop.lastDriveState = false) :
    r.body cfg env w = .ok () w := by
  have hsame : { w with loop := { w.loop with lastDriveState := false } } = w := by rw [← hlast]
  rw [body_of_detected cfg env w hdetect, hseen, hlast, hsleep]
  exact congrArg (EStateM.Result.ok ()) hsame

theorem sleep_of_ok (h : r.body cfg env w = .ok () w') : r.sleep = none := by
  unfold Round.body at h
  obtain ⟨_, _, _, h⟩ := bind_ok.mp h
  rw [bind_of_ok get_apply] at h
  obtain ⟨_, _, _, h⟩ := bind_ok.mp h
  obtain ⟨_, _, _, h⟩ := bind_ok.mp h
  exact (raiseIf_ok.mp h).1

theorem current_iff (hwrite : r.poll.stateWrite = .none) :
    Current cfg env w (.round r) ↔ Agrees cfg w (.round r) := by
  refine ⟨fun h hdetect hsleep hseen hlast => ?_, fun h w' hok => ?_⟩
  · have hquiet := body_absent env (w := w.found r) hdetect hsleep hseen hlast
    have hshown := h _ hquiet
    rw [hseen] at hshown
    exact hshown
  · have hends := pollBody_ends cfg env (w.found r).loop r.poll
    rw [body_ok hok] at hends
    generalize w'.loop = s' at hends ⊢
    cases hends with
    | drained _ hseen | removed _ hseen | stayed _ hseen =>
      rw [updateState_written hwrite, hseen]
      rfl
    | absent hdetect hseen hlast =>
      rw [hseen]
      exact h hdetect (sleep_of_ok hok) hseen hlast

end

/-- **When the published drive state is current.** Over any runs of the service,
with any detections and anything raising, the state file shows after each
completed iteration what that iteration detected exactly when each completed
iteration that sees no drive, and remembers none, starts from a file that
shows none. -/
theorem published_drive_current_iff (cfg : Config) (env : Env) (w : Watched) (events : List Event) :
    Runs.Meets (service cfg env) (Current cfg env) w events ↔
      Runs.Meets (service cfg env) (Agrees cfg) w events := by
  refine Runs.meets_congr fun w event w' h => ?_
  cases event with
  | restart => exact Iff.rfl
  | round r => exact current_iff (Option.ite_none_right_eq_some.mp h).1

/-- No drive is mounted. -/
def benchPulled : Round where
  poll := { benchPoll 104 .none with mounts := noMounts }

/-- A drive is drained, the service is killed, the drive is pulled, and the service
starts again: the console goes on showing the drive. -/
theorem published_drive_stale :
    ¬ Runs.Meets (service {} benchEnv) (Current {} benchEnv) (.start { fs := .empty } .missing)
      [.round benchRetry, .restart, .round benchPulled] := by
  intro h
  obtain ⟨-, h⟩ := h _ rfl
  obtain ⟨-, h⟩ := h _ rfl
  obtain ⟨h, -⟩ := h _ rfl
  have hshown := h _ rfl
  revert hshown
  decide +kernel

/-- A run of the loop, and the time published by the last iteration that exported
a file. -/
structure Traced where
  loop : State
  exportTs : Option String := none

/-- One iteration, writes of the state file succeeding. It exported a file when
`total_exported` has grown. -/
def traced (cfg : Config) (env : Env) (t : Traced) (p : Poll) : Option Traced :=
  if p.stateWrite = .none then
    (iteration cfg env t.loop p).map fun s =>
      ⟨s, if t.loop.totalExported < s.totalExported then some p.exportTs else t.exportTs⟩
  else
    none

/-- The loop begins, with no time to show. -/
def Traced.start (disk : Disk) (stateFile : StateFile) : Traced :=
  { loop := { disk := disk, stateFile := stateFile } }

/-- If a file was exported, the time of the last export is what the console shows. -/
def Remembers (t : Traced) : Prop :=
  ∀ ts, t.exportTs = some ts → lastExport t.loop.stateFile = some ts

/-- Nothing was exported before the iteration, or the detection raises in it. -/
def Spares (t : Traced) (p : Poll) : Prop := t.loop.totalExported = 0 ∨ p.detect ≠ none

/-- What an iteration does to the published time. -/
inductive TracedEnd (t : Traced) (p : Poll) (t' : Traced) : Prop
  | kept : p.detect ≠ none ∨ t.loop.lastDriveState = false → t'.exportTs = t.exportTs →
      t'.loop.totalExported = t.loop.totalExported →
      t'.loop.lastDriveState = t.loop.lastDriveState → t'.loop.stateFile = t.loop.stateFile →
      TracedEnd t p t'
  /-- The file is written, with no time in it. -/
  | cleared : p.detect = none → t'.exportTs = t.exportTs →
      t'.loop.totalExported = t.loop.totalExported → lastExport t'.loop.stateFile = none →
      TracedEnd t p t'
  | exported : t.loop.lastDriveState = false → t'.exportTs = some p.exportTs →
      0 < t'.loop.totalExported → lastExport t'.loop.stateFile = some p.exportTs →
      t'.loop.lastDriveState = true → TracedEnd t p t'

/-- What ties the published time to the loop's variables: while the file shows it,
the loop remembers the drive. -/
structure Traced.Inv (t : Traced) : Prop where
  counted : t.exportTs = none ↔ t.loop.totalExported = 0
  shown : ∀ ts, t.exportTs = some ts → lastExport t.loop.stateFile = some ts →
    t.loop.lastDriveState = true

section
variable {cfg : Config} {env : Env} {t t' : Traced} {p : Poll}

theorem traced_ends (h : traced cfg env t p = some t') : TracedEnd t p t' := by
  obtain ⟨hwrite, h⟩ := Option.ite_none_right_eq_some.mp h
  cases h
  have hends := pollBody_ends cfg env (t.loop.found p) p
  generalize hbody : pollBody cfg env p (t.loop.found p) = out at hends
  cases hends with
  | undetected hraise =>
    rw [after_error hbody]
    exact .kept (.inl (by simp [hraise])) (if_neg (Nat.lt_irrefl _)) rfl rfl rfl
  | aborted _ _ hlast _ =>
    rw [after_error hbody]
    exact .kept (.inr hlast) (if_neg (Nat.lt_irrefl _)) rfl rfl rfl
  | absent _ _ hlast =>
    rw [after_ok hbody]
    exact .kept (.inr hlast) (if_neg (Nat.lt_irrefl _)) rfl rfl rfl
  | removed hdetect | stayed hdetect =>
    rw [after_ok hbody, updateState_written hwrite]
    exact .cleared hdetect (if_neg (Nat.lt_irrefl _)) rfl rfl
  | @drained mount free counts d hdetect _ hlast _ =>
    rw [after_ok hbody, updateState_written hwrite]
    by_cases hsome : counts.1 > 0
    · rw [if_pos hsome]
      refine .exported hlast (if_pos ?_) ?_ rfl rfl
      · exact Nat.lt_add_of_pos_right hsome
      · exact Nat.add_pos_right _ hsome
    · obtain hnone : counts.1 = 0 := by omega
      rw [if_neg hsome, hnone]
      exact .cleared hdetect (if_neg (Nat.lt_irrefl _)) rfl rfl

theorem Traced.Inv.step (hi : t.Inv) (h : traced cfg env t p = some t') : t'.Inv := by
  cases traced_ends h with
  | kept _ hts htotal hlast hfile =>
    refine ⟨?_, fun ts h hshown => ?_⟩
    · rw [hts, htotal]; exact hi.counted
    · rw [hlast]
      exact hi.shown ts (hts ▸ h) (hfile ▸ hshown)
  | cleared _ hts htotal hnone =>
    refine ⟨?_, fun ts _ hshown => ?_⟩
    · rw [hts, htotal]; exact hi.counted
    · cases hnone.symm.trans hshown
  | exported _ hts hpos _ hlast =>
    refine ⟨?_, fun _ _ _ => hlast⟩
    rw [hts]
    exact iff_of_false (by simp) (Nat.ne_of_gt hpos)

/-- Where the time is still shown, a loop that remembers no drive has exported
nothing yet. -/
theorem Traced.Inv.unexported (hi : t.Inv) (hr : Remembers t) (hlast : t.loop.lastDriveState = false) :
    t.loop.totalExported = 0 := by
  refine hi.counted.mp ?_
  cases hts : t.exportTs with
  | none => rfl
  | some ts => cases hlast.symm.trans (hi.shown ts hts (hr ts hts))

theorem remembers_iff (hi : t.Inv) (hr : Remembers t) (h : traced cfg env t p = some t') :
    Remembers t' ↔ Spares t p := by
  cases traced_ends h with
  | kept hwhy hts htotal hlast hfile =>
    have hkept : Remembers t' := by
      intro ts h
      rw [hfile]
      exact hr ts (hts ▸ h)
    exact iff_of_true hkept (hwhy.symm.imp_left (hi.unexported hr))
  | cleared hdetect hts htotal hnone =>
    unfold Remembers Spares
    rw [hts, hnone, ← hi.counted]
    simp [hdetect, Option.eq_none_iff_forall_ne_some]
  | exported hlast hts _ hshown _ =>
    have hnew : Remembers t' := by
      intro ts h
      rw [hshown, ← hts, h]
    exact iff_of_true hnew (.inl (hi.unexported hr hlast))

end

/-- **When the time of the last export is remembered.** In a run of the loop over
any detections and passes, the state file shows the time of the last iteration
that exported a file, from that iteration on, exactly when no later iteration
gets past its detection. (One that raises changes neither the file nor the
time, so this is the same as asking it after the completed ones.) -/
theorem last_export_remembered_iff (cfg : Config) (env : Env) (disk : Disk) (stateFile : StateFile)
    (polls : List Poll) :
    Runs.Always (traced cfg env) Remembers (.start disk stateFile) polls ↔
      Runs.Meets (traced cfg env) Spares (.start disk stateFile) polls := by
  have hstart : (Traced.start disk stateFile).Inv :=
    ⟨iff_of_true rfl rfl, fun ts h => absurd h (by simp [Traced.start])⟩
  exact Runs.always_iff_meets (I := Traced.Inv) (fun _ _ _ hI _ => hI.step)
    (fun _ _ _ => remembers_iff) polls hstart (fun ts h => absurd h (by simp [Traced.start]))

/-- The pass exports a file; two seconds later the drive is still there, and the
console shows no export. -/
theorem last_export_forgotten :
    ¬ Runs.Always (traced {} benchEnv) Remembers (.start { fs := .empty } .missing)
      [{ benchPoll 100 .none with exportTs := "2026-01-01T00:01:40" }, benchPoll 102 .none] := by
  intro h
  have hran : (Runs.run (traced {} benchEnv) (.start { fs := .empty } .missing)
      [{ benchPoll 100 .none with exportTs := "2026-01-01T00:01:40" }, benchPoll 102 .none]).map
        (fun t => (t.exportTs, lastExport t.loop.stateFile)) =
      some (some "2026-01-01T00:01:40", none) := by
    decide +kernel
  obtain ⟨t, hrun, ht⟩ := Option.map_eq_some_iff.mp hran
  obtain ⟨hts, hnone⟩ := Prod.mk.inj ht
  cases hnone.symm.trans (h.last hrun _ hts)

end SeerSensor.MainLoop
