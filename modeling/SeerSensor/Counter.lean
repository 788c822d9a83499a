/-
`total_exported`, the number the console shows, against what was exported.

Every successful call of `transfer_file` is on record (`Disk.calls`). The loop
adds up what `export_batch` returns, so a pass that raises takes its successes
with it: they are on the drive and in no total. `total_exported_counts` says
that this is the only difference, in any run, and that no state file the
process writes ever claims more than was exported.
-/
import SeerSensor.ExportSpec
import SeerSensor.LoopFaults

namespace SeerSensor.MainLoop

open Raise

/-- The transfers that succeeded. -/
def succeeded (calls : List Call) : Nat := (calls.filter (·.success)).length

theorem succeeded_append (xs ys : List Call) : succeeded (xs ++ ys) = succeeded xs + succeeded ys := by
  simp [succeeded]

theorem succeeded_mono {xs ys : List Call} (h : xs <+: ys) : succeeded xs ≤ succeeded ys := by
  obtain ⟨zs, rfl⟩ := h
  rw [succeeded_append]
  exact Nat.le_add_right _ _

/-! ## One pass -/

section
variable {env : Env} {rotate : ℚ} {inp : BatchInput} {dest : Dir} {n : Name} {d d' : Disk}

theorem turn_succeeded (env : Env) (rotate : ℚ) (inp : BatchInput) (dest : Dir) (fs : FS) (n : Name) :
    succeeded (turnCall env rotate inp dest fs n).toList =
      (turnReceipt env rotate inp dest fs n).toList.length := by
  unfold turnCall turnReceipt succeeded
  split
  · rfl
  · split <;> simp_all

theorem turns_succeeded (env : Env) (rotate : ℚ) (inp : BatchInput) (dest : Dir) (fs : FS)
    (ns : List Name) :
    succeeded (ns.filterMap (turnCall env rotate inp dest fs)) =
      (ns.filterMap (turnReceipt env rotate inp dest fs)).length := by
  induction ns with
  | nil => rfl
  | cons n ns ih =>
    have hcons : ∀ {β : Type} (g : Name → Option β), (n :: ns).filterMap g = (g n).toList ++
        ns.filterMap g := by
      intro β g
      cases h : g n <;> simp [h]
    rw [hcons, hcons, succeeded_append, List.length_append, ih, turn_succeeded]

/-- **What a pass returns is what it exported.** -/
theorem exportBatch_counts {drive : Drive} {counts : Nat × Nat}
    (h : exportBatch env rotate inp drive d = .ok counts d') :
    succeeded d'.calls = succeeded d.calls + counts.1 := by
  obtain ⟨acc, d₁, hloop, -, rfl⟩ := exportBatch_ok h
  obtain ⟨-, -, -, htransferred, -⟩ := exportLoop_ok (backlogPcaps_nodup d.fs) hloop
  have hcount := (exportLoop_counted hloop ⟨rfl, rfl⟩).1
  rw [exportBatch_calls h, succeeded_append, turns_succeeded, hcount, htransferred]
  rfl

theorem exportBatch_error_calls {drive : Drive} {e : String}
    (h : exportBatch env rotate inp drive d = .error e d') : d.calls <+: d'.calls := by
  rcases exportBatch_error h with rfl | hloop
  · exact List.prefix_rfl
  · have hcalls : Within (fun d d' : Disk => d.calls <+: d'.calls)
        (exportLoop env rotate inp (.pcap drive inp.date) (backlogPcaps d.fs) {}) :=
      exportLoop_within (fun _ => List.prefix_rfl) (fun _ _ _ h₁ h₂ => h₁.trans h₂)
        (fun _ _ _ => List.prefix_append _ _) {}
    exact after_error hloop ▸ hcalls d

end

/-! ## One iteration -/

/-- The total has grown by what was exported, and no pass has raised. -/
structure Balanced (w w' : Watched) : Prop where
  books : succeeded w'.loop.disk.calls + w.loop.totalExported =
    succeeded w.loop.disk.calls + w'.loop.totalExported
  raised : w'.passes.count false = w.passes.count false

theorem Balanced.refl (w : Watched) : Balanced w w := ⟨rfl, rfl⟩

theorem Balanced.trans (u v w : Watched) (h₁ : Balanced u v) (h₂ : Balanced v w) : Balanced u w where
  books := by
    have hbooks₁ := h₁.books
    have hbooks₂ := h₂.books
    omega
  raised := h₂.raised.trans h₁.raised

/-- The total only grows, and what this process publishes is at most the total. -/
structure Published (w w' : Watched) : Prop where
  grows : w.loop.totalExported ≤ w'.loop.totalExported
  file : ∀ rec, w'.loop.stateFile = .written rec →
    w'.loop.stateFile = w.loop.stateFile ∨ rec.totalExported ≤ w'.loop.totalExported

theorem Published.refl (w : Watched) : Published w w := ⟨Nat.le_refl _, fun _ _ => .inl rfl⟩

theorem Published.trans (u v w : Watched) (h₁ : Published u v) (h₂ : Published v w) : Published u w where
  grows := Nat.le_trans h₁.grows h₂.grows
  file rec hrec := by
    rcases h₂.file rec hrec with hsame | hle
    · rcases h₁.file rec (hsame.symm.trans hrec) with hbefore | hle
      · exact .inl (hsame.trans hbefore)
      · exact .inr (Nat.le_trans hle h₂.grows)
    · exact .inr hle

section
variable {cfg : Config} {env : Env} {w w' : Watched} {r : Round}

theorem updateState_totalExported (p : Poll) (drivePresent : Bool) (ts : Option String) (s : State) :
    (updateState p drivePresent ts s).totalExported = s.totalExported := by
  unfold updateState
  split <;> rfl

theorem balanced_onLoop {f : State → State} (hdisk : ∀ s, (f s).disk = s.disk)
    (htotal : ∀ s, (f s).totalExported = s.totalExported) : Within Balanced (onLoop f) := by
  intro w
  refine ⟨?_, rfl⟩
  show succeeded (f w.loop).disk.calls + _ = _ + (f w.loop).totalExported
  rw [hdisk, htotal]

theorem balanced_updateState (p : Poll) (drivePresent : Bool) (ts : Option String) :
    Within Balanced (onLoop (updateState p drivePresent ts)) :=
  balanced_onLoop (fun _ => updateState_disk drivePresent ts) (updateState_totalExported p drivePresent ts)

theorem balanced_raiseIf (fault : Option String) : Within Balanced (raiseIf fault) :=
  within_raiseIf Balanced.refl fault

theorem balanced_idle (cfg : Config) (env : Env) (r : Round) {target : Option (String × Nat)}
    {last : Bool} (h : target ≠ none → last = true) : Within Balanced (r.onTarget cfg env target last) := by
  have hpublish : ∀ present, Within Balanced (do
      onLoop (updateState r.poll present none)
      raiseIf r.publish : Prog Watched Unit) := fun present =>
    within_bind Balanced.trans (balanced_updateState r.poll present none) fun _ => balanced_raiseIf _
  cases target with
  | none =>
    cases last with
    | false => exact Balanced.refl
    | true => exact within_bind Balanced.trans (balanced_raiseIf _) fun _ => hpublish false
  | some target =>
    cases h (by simp)
    exact hpublish true

/-- A pass that returned: what it exported is added before anything can raise. -/
theorem balanced_drain {drive : Drive} {counts : Nat × Nat} {d : Disk}
    (h : exportBatch env cfg.rotateSeconds r.poll.batch drive w.loop.disk = .ok counts d) :
    Balanced w (after (r.drain cfg env drive) w) := by
  have hadded : onLoop (fun s => { s with totalExported := s.totalExported + counts.1 })
      ⟨{ w.loop with disk := d }, w.passes ++ [true]⟩ = .ok ()
        ⟨{ w.loop with disk := d, totalExported := w.loop.totalExported + counts.1 },
          w.passes ++ [true]⟩ := rfl
  have hrest : Within Balanced (do
      raiseIf r.report
      onLoop (updateState r.poll true (if counts.1 > 0 then some r.poll.exportTs else none))
      raiseIf r.publish : Prog Watched Unit) :=
    within_bind Balanced.trans (balanced_raiseIf _) fun _ =>
      within_bind Balanced.trans (balanced_updateState _ _ _) fun _ => balanced_raiseIf _
  unfold Round.drain
  rw [after_bind_ok (passOver_ok h), after_bind_ok hadded]
  refine Balanced.trans _ _ _ ⟨?_, ?_⟩ (hrest _)
  · show succeeded d.calls + w.loop.totalExported =
      succeeded w.loop.disk.calls + (w.loop.totalExported + counts.1)
    rw [exportBatch_counts h]
    omega
  · simp

/-- The iteration from the detection on, once its branch has been taken. -/
theorem balanced_body (hdetect : r.poll.detect = none)
    (hturn : Balanced w (after (r.onTarget cfg env (detected cfg r.poll) w.loop.lastDriveState) w)) :
    Balanced w (after (r.body cfg env) w) := by
  have hrest : Within Balanced (do
      onLoop fun s => { s with lastDriveState := (detected cfg r.poll).isSome }
      raiseIf r.sleep : Prog Watched Unit) :=
    within_bind Balanced.trans (balanced_onLoop (fun _ => rfl) fun _ => rfl) fun _ => balanced_raiseIf _
  have hbody := body_of_detected cfg env w hdetect
  have hafter : after (r.body cfg env) w = after (do
      r.onTarget cfg env (detected cfg r.poll) w.loop.lastDriveState
      onLoop fun s => { s with lastDriveState := (detected cfg r.poll).isSome }
      raiseIf r.sleep : Prog Watched Unit) w := by
    simp only [after, hbody]
  rw [hafter]
  exact Balanced.trans _ _ _ hturn (within_rest Balanced.refl (fun _ => hrest) w)

/-- **One iteration.** Its books balance, or its pass raised and the total is as
it was. -/
theorem round_books (cfg : Config) (env : Env) (w : Watched) (r : Round) :
    Balanced w (after (r.body cfg env) (w.found r)) ∨
      Passed cfg env false w r ∧
        (after (r.body cfg env) (w.found r)).loop.totalExported = w.loop.totalExported ∧
        w.loop.disk.calls <+: (after (r.body cfg env) (w.found r)).loop.disk.calls := by
  have hfound : ∀ {w'}, Balanced (w.found r) w' → Balanced w w' := fun h => ⟨h.books, h.raised⟩
  cases hdetect : r.poll.detect with
  | some e =>
    have hraise : raiseIf r.poll.detect (w.found r) = .error e (w.found r) := by rw [hdetect]; rfl
    left
    rw [Round.body, after_bind_error hraise]
    exact hfound (Balanced.refl _)
  | none =>
    by_cases hidle : detected cfg r.poll ≠ none → w.loop.lastDriveState = true
    · left
      exact hfound (balanced_body hdetect (balanced_idle cfg env r hidle (w.found r)))
    · obtain ⟨hdrive, hlast⟩ := Classical.not_imp.mp hidle
      obtain ⟨⟨mount, free⟩, htarget⟩ := Option.ne_none_iff_exists'.mp hdrive
      have hturn : r.onTarget cfg env (detected cfg r.poll) (w.found r).loop.lastDriveState =
          r.drain cfg env (r.poll.mounts.volume mount) := by
        rw [htarget, show (w.found r).loop.lastDriveState = false from Bool.eq_false_iff.mpr hlast]
        rfl
      cases hpass : exportBatch env cfg.rotateSeconds r.poll.batch (r.poll.mounts.volume mount)
          (w.found r).loop.disk with
      | ok counts d =>
        left
        refine hfound (balanced_body hdetect ?_)
        rw [hturn]
        exact balanced_drain hpass
      | error e d =>
        right
        have hdrain : r.drain cfg env (r.poll.mounts.volume mount) (w.found r) = .error e
            ⟨{ (w.found r).loop with disk := d }, w.passes ++ [false]⟩ :=
          bind_of_error (passOver_error hpass)
        have hbody := body_of_detected cfg env (w.found r) hdetect
        rw [hturn] at hbody
        have hend := after_error (hbody.trans (bind_of_error hdrain))
        refine ⟨?_, ?_, ?_⟩
        · rw [Passed, hend]
        · rw [hend]; rfl
        · have hcalls : (w.found r).loop.disk.calls <+: d.calls := exportBatch_error_calls hpass
          rw [hend]
          exact hcalls

theorem Balanced.not_raised (h : Balanced w (after (r.body cfg env) (w.found r))) :
    ¬ Passed cfg env false w r := by
  intro hraised
  have hcount := h.raised
  rw [show (after (r.body cfg env) (w.found r)).passes = _ from hraised] at hcount
  simp at hcount

theorem published_body (cfg : Config) (env : Env) (r : Round) : Within Published (r.body cfg env) := by
  have hpublish : ∀ present ts, Within Published (do
      onLoop (updateState r.poll present ts)
      raiseIf r.publish : Prog Watched Unit) := by
    intro present ts
    refine within_bind Published.trans (fun w => ⟨?_, fun rec hrec => ?_⟩) fun _ =>
      within_raiseIf Published.refl _
    · exact Nat.le_of_eq (updateState_totalExported r.poll present ts w.loop).symm
    · have hrec : (updateState r.poll present ts w.loop).stateFile = .written rec := hrec
      show (updateState r.poll present ts w.loop).stateFile = _ ∨
        _ ≤ (updateState r.poll present ts w.loop).totalExported
      rw [updateState_totalExported]
      unfold updateState at hrec ⊢
      split at hrec
      · cases hrec; exact .inr (Nat.le_refl _)
      · exact .inl rfl
      · cases hrec
  have hpass : ∀ drive, Within Published
      (passOver (exportBatch env cfg.rotateSeconds r.poll.batch drive)) := by
    intro drive w
    cases h : exportBatch env cfg.rotateSeconds r.poll.batch drive w.loop.disk with
    | ok counts d => rw [after_ok (passOver_ok h)]; exact ⟨Nat.le_refl _, fun _ _ => .inl rfl⟩
    | error e d => rw [after_error (passOver_error h)]; exact ⟨Nat.le_refl _, fun _ _ => .inl rfl⟩
  have hturn : ∀ target last, Within Published (r.onTarget cfg env target last) := by
    intro target last
    cases target with
    | none =>
      cases last with
      | false => exact Published.refl
      | true => exact within_bind Published.trans (within_raiseIf Published.refl _) fun _ => hpublish _ _
    | some target =>
      cases last with
      | true => exact hpublish _ _
      | false =>
        refine within_bind Published.trans (hpass _) fun counts => ?_
        refine within_bind Published.trans (fun w => ⟨Nat.le_add_right _ _, fun _ _ => .inl rfl⟩) fun _ => ?_
        exact within_bind Published.trans (within_raiseIf Published.refl _) fun _ => hpublish _ _
  refine within_bind Published.trans (within_raiseIf Published.refl _) fun _ => ?_
  refine within_bind Published.trans Published.refl fun w => ?_
  refine within_bind Published.trans (hturn _ _) fun _ => ?_
  exact within_bind Published.trans (fun w => ⟨Nat.le_refl _, fun _ _ => .inl rfl⟩) fun _ =>
    within_raiseIf Published.refl _

end

/-! ## Whole runs -/

instance (cfg : Config) (env : Env) (returned : Bool) (w : Watched) (r : Round) :
    Decidable (Passed cfg env returned w r) :=
  inferInstanceAs (Decidable (_ = _))

/-- What the passes that raised had exported. -/
def uncounted (cfg : Config) (env : Env) : Watched → List Round → Nat
  | _, [] => 0
  | w, r :: rs =>
    let w' := after (r.body cfg env) (w.found r)
    (if Passed cfg env false w r then succeeded w'.loop.disk.calls - succeeded w.loop.disk.calls else 0) +
      uncounted cfg env w' rs

theorem run_books (cfg : Config) (env : Env) {w w' : Watched} {rounds : List Round}
    (h : Runs.run (round cfg env) w rounds = some w') :
    succeeded w'.loop.disk.calls + w.loop.totalExported =
      succeeded w.loop.disk.calls + w'.loop.totalExported + uncounted cfg env w rounds := by
  induction rounds generalizing w with
  | nil => cases h; rfl
  | cons r rounds ih =>
    obtain ⟨w₁, h₁, h⟩ := Runs.run_cons.mp h
    obtain rfl : after (r.body cfg env) (w.found r) = w₁ := by simpa [round] using h₁
    have hrest := ih h
    rcases round_books cfg env w r with hbal | ⟨hraised, htotal, hcalls⟩
    · have hbooks := hbal.books
      simp only [uncounted, if_neg hbal.not_raised]
      omega
    · have hmono := succeeded_mono hcalls
      simp only [uncounted, if_pos hraised]
      omega

/-- **`total_exported` counts what was exported.** In every run of the loop,
whatever is detected and whatever raises: the total is the number of transfers
of this process that succeeded, less those of the passes that raised; and a
state file the process has written claims no more than that total. -/
theorem total_exported_counts (cfg : Config) (env : Env) (disk : Disk) (stateFile : StateFile)
    (rounds : List Round) (w : Watched)
    (hrun : Runs.run (round cfg env) (.start disk stateFile) rounds = some w) :
    succeeded w.loop.disk.calls = succeeded disk.calls + w.loop.totalExported +
        uncounted cfg env (.start disk stateFile) rounds ∧
      ∀ rec, w.loop.stateFile = .written rec →
        w.loop.stateFile = stateFile ∨ rec.totalExported ≤ w.loop.totalExported := by
  refine ⟨run_books cfg env hrun, ?_⟩
  have hpublished : Published (.start disk stateFile) w := by
    refine Runs.invariant (I := Published (.start disk stateFile)) (fun u r v hu hstep => ?_)
      (Published.refl _) hrun
    obtain rfl : after (r.body cfg env) (u.found r) = v := by simpa [round] using hstep
    refine Published.trans _ _ _ hu ?_
    have hbody := published_body cfg env r (u.found r)
    exact ⟨hbody.grows, hbody.file⟩
  exact hpublished.file

/-- The size of the second file cannot be read after its copy has failed: the
first one is on the drive, and not in the total. -/
def benchUncounted : Round where
  poll := { benchPoll 100 .none with
    files := (FS.empty.write ⟨.backlog, "a.pcap"⟩ ⟨[0x61], 0⟩).write ⟨.backlog, "b.pcap"⟩ ⟨[0x62], 0⟩
    batch :=
      { date := "20260101"
        turn := fun n => if n = "a.pcap" then { now := 100 } else
          { now := 100, transfer := { copy2 := .refused "[Errno 5]" }, stat := some "[Errno 5]" } } }

theorem total_exported_counts_raised :
    ∃ w, Runs.run (round {} benchEnv) (.start { fs := .empty } .missing) [benchUncounted] = some w ∧
      succeeded w.loop.disk.calls = 1 ∧ w.loop.totalExported = 0 ∧
      uncounted {} benchEnv (.start { fs := .empty } .missing) [benchUncounted] = 1 := by
  have hran : (Runs.run (round {} benchEnv) (.start { fs := .empty } .missing) [benchUncounted]).map
      (fun w => (succeeded w.loop.disk.calls, w.loop.totalExported)) = some (1, 0) := by
    decide +kernel
  obtain ⟨w, hrun, hw⟩ := Option.map_eq_some_iff.mp hran
  obtain ⟨hcalls, htotal⟩ := Prod.mk.inj hw
  have hbooks := (total_exported_counts {} benchEnv { fs := .empty } .missing [benchUncounted] w hrun).1
  rw [hcalls, htotal] at hbooks
  exact ⟨w, hrun, hcalls, htotal, by simpa [succeeded] using hbooks.symm⟩

end SeerSensor.MainLoop
