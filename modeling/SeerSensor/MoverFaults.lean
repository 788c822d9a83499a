/-
What a run of the mover makes of a fault on the drive.

The mover sends its target straight to the drive with `shutil.move`, which
where it cannot rename is a copy and an `unlink` and compares nothing. So a copy
that wrote something else and returned costs the only good copy, which is what
the exporter's checksum is there to prevent. And a drive that was chosen is
the only place tried: a directory that cannot be made ends the run with an
uncaught exception, and a move that raises is logged and leaves the target in
the ring, where the next run picks it again.
-/
import SeerSensor.MoveOldestFacts

namespace SeerSensor

open Raise

section
variable {env : Env} {fl : MoveFaults} {src dst : Path} {f : File} {fs fs' : FS}

/-- A move that goes through leaves nothing at the source and something at the
destination; one that does not leaves the source. -/
theorem shutilMove_completes (env : Env) (fl : MoveFaults) (hne : src ≠ dst)
    (hsrc : fs.read src = some f) :
    (fl.completes (env.sameDev src dst.dir) ∧
      (after (shutilMove env fl src dst) fs).read src = none ∧
      (after (shutilMove env fl src dst) fs).read dst ≠ none) ∨
    (¬ fl.completes (env.sameDev src dst.dir) ∧
      (after (shutilMove env fl src dst) fs).read src = some f) := by
  rcases shutilMove_ends env fl hne hsrc with ⟨hstop, h⟩ | ⟨hgo, hend⟩
  · refine .inr ⟨fun hc => ?_, by rw [h, hsrc]⟩
    rcases hc with hmove | ⟨hc, -⟩
    · exact hstop.1 hmove
    · have hrefused := hstop.2
      cases hcopy : fl.copy2 <;> simp [hcopy, CopyFault.isRefused, CopyFault.returns] at hrefused hc
  · generalize after (shutilMove env fl src dst) fs = fs' at hend
    cases hend with
    | renamed hmove =>
      refine .inl ⟨.inl hmove, ?_, by simp⟩
      rw [FS.read_write_ne hne, FS.read_remove_self]
    | torn hmove hc =>
      refine .inr ⟨fun h => ?_, by rw [FS.read_write_ne hne, hsrc]⟩
      rcases h with h | ⟨hr, -⟩
      · exact hmove h
      · simp [hc, CopyFault.returns] at hr
    | copied hmove hw hu =>
      refine .inl ⟨.inr ⟨hw.returns, hu⟩, FS.read_remove_self, ?_⟩
      rw [FS.read_remove_ne hne.symm]
      simp
    | undeleted hmove hw hu =>
      refine .inr ⟨fun h => ?_, by rw [FS.read_write_ne hne, hsrc]⟩
      rcases h with h | ⟨-, hu'⟩
      · exact hmove h
      · cases hu.symm.trans hu'

/-- The copy writes other bytes than `b` and returns, and the source is unlinked. -/
def MoveFaults.miscopies (fl : MoveFaults) (b : Bytes) : Prop :=
  ∃ b', fl.copy2 = .corrupt b' ∧ b' ≠ b ∧ fl.unlink = none

theorem shutilMove_verified_iff (env : Env) (fl : MoveFaults) (hdev : ¬ env.sameDev src dst.dir)
    (hsrc : fs.read src = some f) :
    ((after (shutilMove env fl src dst) fs).read src = none →
      (after (shutilMove env fl src dst) fs).contents dst = some f.bytes) ↔
    ¬ fl.miscopies f.bytes := by
  have hne : src ≠ dst := fun he => hdev (by rw [he]; rfl)
  -- a move that left the source there has lost nothing, and was not a bad copy
  have hkept : ∀ fs' : FS, fs'.read src = some f → ¬ fl.miscopies f.bytes →
      ((fs'.read src = none → fs'.contents dst = some f.bytes) ↔ ¬ fl.miscopies f.bytes) := by
    intro fs' hread hgood
    exact ⟨fun _ => hgood, fun _ hgone => by cases hread.symm.trans hgone⟩
  rcases shutilMove_ends env fl hne hsrc with ⟨hstop, h⟩ | ⟨-, hend⟩
  · rw [h]
    refine hkept fs hsrc fun hbad => ?_
    obtain ⟨b, hc, -, -⟩ := hbad
    have hrefused := hstop.2
    simp [hc, CopyFault.isRefused] at hrefused
  · generalize after (shutilMove env fl src dst) fs = fs' at hend
    cases hend with
    | renamed hmove => exact absurd hmove.1 hdev
    | torn _ hc =>
      refine hkept _ (by rw [FS.read_write_ne hne, hsrc]) fun hbad => ?_
      obtain ⟨b, hc', -, -⟩ := hbad
      cases hc.symm.trans hc'
    | undeleted _ hw hu =>
      refine hkept _ (by rw [FS.read_write_ne hne, hsrc]) fun hbad => ?_
      obtain ⟨b, -, -, hu'⟩ := hbad
      cases hu.symm.trans hu'
    | copied _ hw hu =>
      rw [FS.contents, FS.read_remove_ne hne.symm, FS.read_write_self, Option.map_some,
        Option.some.injEq, FS.read_remove_self]
      unfold MoveFaults.miscopies
      generalize hc : fl.copy2 = fault at hw
      cases hw with
      | faithful => simp
      | other b =>
        refine ⟨fun h hbad => ?_, fun h _ => ?_⟩
        · obtain ⟨b', hb, hdiff, -⟩ := hbad
          cases hb
          exact hdiff (h rfl)
        · by_contra hdiff
          exact h ⟨b, rfl, hdiff, hu⟩

end

namespace MoveOldest

/-- The run has enough files in the ring and finds a target. -/
structure Targets (cfg : Config) (r : MoverRun) (fs : FS) (target : Name) : Prop where
  count : cfg.thresh ≤ (ringPcaps fs).length
  pick : pickOldestClosed r.now (captureAll fs r.between) = some target

/-- The run gets as far as its move. -/
def MoverRun.reaches (cfg : Config) (r : MoverRun) : Prop := destDir cfg r = .backlog ∨ r.mkdir = none

section
variable {cfg : Config} {env : Env} {r : MoverRun} {fs : FS} {target : Name}

theorem Targets.main_ends (h : Targets cfg r fs target) (env : Env) :
    (r.reaches cfg ∧ ∃ line, main cfg env r fs = .ok line
      (after (shutilMove env r.move ⟨.ring, target⟩ ⟨destDir cfg r, target⟩)
        (captureAll fs r.between))) ∨
    (¬ r.reaches cfg ∧ ∃ e, main cfg env r fs = .error e (captureAll fs r.between)) := by
  have hend := pickAndMove_ends cfg env r (captureAll fs r.between)
  rw [← main_picks env r h.count] at hend
  generalize main cfg env r fs = res at hend
  cases hend with
  | nothing hpick => cases hpick.symm.trans h.pick
  | unmade hpick hdest hmk =>
    refine .inr ⟨fun hgo => ?_, _, rfl⟩
    rcases hgo with hb | hn
    · exact hdest hb
    · cases hmk.symm.trans hn
  | moved hpick hgo =>
    cases hpick.symm.trans h.pick
    exact .inl ⟨hgo, _, rfl⟩

end

/-- **When the mover keeps verify-before-delete.** For every run that has a
target, on another filesystem than its destination: the ring file is removed
only if the destination holds its bytes, exactly when the run does not reach
a move whose copy returns with other bytes written and whose `unlink` works. -/
theorem mover_verified_iff (cfg : Config) (env : Env) (r : MoverRun) (fs : FS) (target : Name) (f : File)
    (htarget : Targets cfg r fs target) (hsrc : (captureAll fs r.between).read ⟨.ring, target⟩ = some f)
    (hdev : ¬ env.sameDev ⟨.ring, target⟩ (destDir cfg r)) :
    ((after (main cfg env r) fs).read ⟨.ring, target⟩ = none →
      (after (main cfg env r) fs).contents ⟨destDir cfg r, target⟩ = some f.bytes) ↔
    ¬ (r.reaches cfg ∧ r.move.miscopies f.bytes) := by
  rcases htarget.main_ends env with ⟨hgo, line, h⟩ | ⟨hgo, e, h⟩
  · rw [after_ok h, shutilMove_verified_iff env r.move hdev hsrc, and_iff_right hgo]
  · rw [after_error h, hsrc]
    exact ⟨fun _ hbad => hgo hbad.1, fun _ hgone => absurd hgone (by simp)⟩

/-- An old capture and a fresh one. -/
def benchRing : FS := (FS.empty.write ⟨.ring, "x.pcap"⟩ ⟨[0x61], 0⟩).write ⟨.ring, "y.pcap"⟩ ⟨[], 10⟩

/-- A run that sees a drive. -/
def benchRun (mkdir : Option String) (move : MoveFaults) : MoverRun where
  now := 20
  mounts := oneMount "SEER_EXT"
  date := "20260101"
  mkdir := mkdir
  move := move

theorem benchRun_targets (mkdir : Option String) (move : MoveFaults) :
    Targets { thresh := 2 } (benchRun mkdir move) benchRing "x.pcap" := by
  refine ⟨by decide +kernel, ?_⟩
  show pickOldestClosed 20 benchRing = some "x.pcap"
  decide +kernel

theorem benchRun_destDir (mkdir : Option String) (move : MoveFaults) :
    destDir { thresh := 2 } (benchRun mkdir move) = .pcap "SEER_EXT" "20260101" := by
  show destDir { thresh := 2 } (benchRun none {}) = _
  decide +kernel

/-- The drive writes something else and says nothing; the capture is gone. -/
theorem mover_deletes_unverified :
    (after (main { thresh := 2 } benchEnv (benchRun none { copy2 := .corrupt [0x62] })) benchRing).read
        ⟨.ring, "x.pcap"⟩ = none ∧
      (after (main { thresh := 2 } benchEnv (benchRun none { copy2 := .corrupt [0x62] }))
        benchRing).contents ⟨.pcap "SEER_EXT" "20260101", "x.pcap"⟩ = some [0x62] := by
  decide +kernel

/-- With a faithful copy it is on the drive. -/
theorem mover_verified_faithful :
    (after (main { thresh := 2 } benchEnv (benchRun none {})) benchRing).contents
      ⟨destDir { thresh := 2 } (benchRun none {}), "x.pcap"⟩ = some [0x61] := by
  refine (mover_verified_iff { thresh := 2 } benchEnv (benchRun none {}) benchRing "x.pcap"
    ⟨[0x61], 0⟩ (benchRun_targets none {}) (by decide +kernel) (by decide +kernel)).mpr ?_
    (by decide +kernel)
  rintro ⟨-, b, hc, -, -⟩
  cases hc

/-- **When a failing drive does not stop the mover.** For every run that has a
target, where a move to the backlog would go through: it ends without an
uncaught exception and the target has left the ring for the drive or the
backlog, exactly when no drive was chosen or nothing fails on the one that was. -/
theorem mover_moves_iff (cfg : Config) (env : Env) (r : MoverRun) (fs : FS) (target : Name)
    (htarget : Targets cfg r fs target)
    (hbacklog : destDir cfg r = .backlog → r.move.completes (env.sameDev ⟨.ring, target⟩ .backlog)) :
    (∃ line fs', main cfg env r fs = .ok line fs' ∧ fs'.read ⟨.ring, target⟩ = none ∧
      ∃ dir, (dir = .backlog ∨ dir = destDir cfg r) ∧ fs'.read ⟨dir, target⟩ ≠ none) ↔
    destDir cfg r = .backlog ∨
      (r.mkdir = none ∧ r.move.completes (env.sameDev ⟨.ring, target⟩ (destDir cfg r))) := by
  obtain ⟨f, hsrc, -, -⟩ := pickOldestClosed_mem htarget.pick
  have hcond : (destDir cfg r = .backlog ∨
      (r.mkdir = none ∧ r.move.completes (env.sameDev ⟨.ring, target⟩ (destDir cfg r)))) ↔
      r.reaches cfg ∧ r.move.completes (env.sameDev ⟨.ring, target⟩ (destDir cfg r)) := by
    unfold MoverRun.reaches
    refine ⟨fun h => ?_, fun h => ?_⟩
    · rcases h with hb | ⟨hmk, hc⟩
      · exact ⟨.inl hb, hb ▸ hbacklog hb⟩
      · exact ⟨.inr hmk, hc⟩
    · rcases h with ⟨hb | hmk, hc⟩
      · exact .inl hb
      · exact .inr ⟨hmk, hc⟩
  rw [hcond]
  rcases htarget.main_ends env with ⟨hgo, line, h⟩ | ⟨hgo, e, h⟩
  · rw [and_iff_right hgo, h]
    rcases shutilMove_completes env r.move (ring_ne_dest cfg r target target) hsrc with
      ⟨hc, hgone, hthere⟩ | ⟨hc, hkept⟩
    · exact ⟨fun _ => hc, fun _ => ⟨line, _, rfl, hgone, destDir cfg r, .inr rfl, hthere⟩⟩
    · refine ⟨fun h => ?_, fun h => absurd h hc⟩
      obtain ⟨line', fs', hres, hgone, -⟩ := h
      cases hres
      cases hkept.symm.trans hgone
  · rw [h]
    refine ⟨fun h => ?_, fun h => absurd h.1 hgo⟩
    obtain ⟨line', fs', hres, -⟩ := h
    cases hres

/-- The directory cannot be made: the exception is nobody's. The drive is full
for this file: the error is logged, and the file stays in the ring with the
backlog free. -/
theorem mover_stopped :
    (∃ e fs', main { thresh := 2 } benchEnv (benchRun (some "[Errno 30] Read-only file system") {})
      benchRing = .error e fs') ∧
    ∃ line fs', main { thresh := 2 } benchEnv
        (benchRun none { copy2 := .torn 0 20 "[Errno 28] No space left on device" }) benchRing =
          .ok line fs' ∧
      fs'.read ⟨.ring, "x.pcap"⟩ = some ⟨[0x61], 0⟩ ∧ fs'.read ⟨.backlog, "x.pcap"⟩ = none := by
  refine ⟨?_, ?_⟩
  · rcases (benchRun_targets (some "[Errno 30] Read-only file system") {}).main_ends benchEnv with
      ⟨hgo, -⟩ | ⟨-, e, he⟩
    · rcases hgo with hb | hmk
      · cases (benchRun_destDir _ _).symm.trans hb
      · cases hmk
    · exact ⟨e, _, he⟩
  · rcases (benchRun_targets none { copy2 := .torn 0 20 "[Errno 28] No space left on device" }).main_ends
      benchEnv with ⟨-, line, h⟩ | ⟨hgo, -⟩
    · exact ⟨line, _, h, by decide +kernel, by decide +kernel⟩
    · exact absurd (.inr rfl) hgo

/-- With nothing failing on the drive the target is there. -/
theorem mover_moves_to_drive :
    ∃ line fs', main { thresh := 2 } benchEnv (benchRun none {}) benchRing = .ok line fs' ∧
      fs'.read ⟨.ring, "x.pcap"⟩ = none ∧
      ∃ dir, (dir = .backlog ∨ dir = destDir { thresh := 2 } (benchRun none {})) ∧
        fs'.read ⟨dir, "x.pcap"⟩ ≠ none :=
  (mover_moves_iff { thresh := 2 } benchEnv (benchRun none {}) benchRing "x.pcap"
    (benchRun_targets none {})
    (fun hb => by cases (benchRun_destDir _ _).symm.trans hb)).mpr
    (.inr ⟨rfl, .inr ⟨rfl, rfl⟩⟩)

end MoveOldest

end SeerSensor
