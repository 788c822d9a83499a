/-
What happens to a file that is already at the destination.

Neither program looks there first: the mover's `shutil.move` and the
exporter's `transfer_file` write over whatever has the name. So the bytes that
were there survive only where they are stored a second time, where the call
fails before it opens the destination, or where, by accident, what a bad copy
leaves there is those same bytes again. A rename that raises is no failure yet:
`shutil.move` goes on to copy. `Spares` says that of a schedule, and
the result is an equivalence for both programs.
-/
import SeerSensor.MoveOldestFacts
import SeerSensor.TransferFacts

namespace SeerSensor

open Raise

/-- The bytes are under another path as well. -/
def Elsewhere (fs : FS) (dst : Path) (b : Bytes) : Prop := ∃ p, p ≠ dst ∧ fs.contents p = some b

/-- The hashes are compared and found to differ, and the bad copy is removed. -/
def TransferFaults.discards (fl : TransferFaults) (H : Hash.Incremental) (new written : Bytes) : Prop :=
  fl.sync = none ∧ fl.hashSrc = none ∧ fl.hashDst = none ∧ H.digest new ≠ H.digest written ∧
    fl.unlinkDst = none

/-- What a copy of `new` leaves at the destination is `old` again: it is torn
just where `old` ends, or it writes `old` in its place. -/
def CopyFault.Leaves (fault : CopyFault) (new old : Bytes) : Prop :=
  match fault with
  | .torn n _ _ => new.take n = old
  | .corrupt b => b = old
  | _ => False

/-- A `shutil.move` of `new` under this schedule leaves `old` at a destination that held
it: it stops before opening it, or copies and leaves it there. -/
def MoveFaults.Spares (fl : MoveFaults) (same : Prop) (new old : Bytes) : Prop :=
  fl.stopsEarly same ∨ (¬ fl.renames same ∧ fl.copy2.Leaves new old)

/-- The same for a `transfer_file`, which across two devices may throw the copy away. -/
def TransferFaults.Spares (fl : TransferFaults) (H : Hash.Incremental) (same : Prop)
    (new old : Bytes) : Prop :=
  fl.stopsEarly same ∨ (same ∧ fl.move.Spares same new old) ∨
    (¬ same ∧ fl.copy2.Leaves new old ∧ ∀ b, fl.copy2 = .corrupt b → ¬ fl.discards H new b)

section
variable {env : Env} {src dst : Path} {f old : File} {fs fs' : FS}

theorem stored_after_iff (hsrc : fs.read src = some f) (hdiff : old.bytes ≠ f.bytes)
    (hframe : ∀ p, p ≠ src → p ≠ dst → fs'.read p = fs.read p)
    (hsrc' : src ≠ dst → fs'.read src = some f ∨ fs'.read src = none) :
    fs'.Stored old.bytes ↔ Elsewhere fs dst old.bytes ∨ fs'.contents dst = some old.bytes := by
  have hnot : ∀ p, fs.contents p = some old.bytes → p ≠ src := by
    intro p hp he
    rw [he, FS.contents_of_read hsrc, Option.some.injEq] at hp
    exact hdiff hp.symm
  have hnot' : ∀ p, p ≠ dst → fs'.contents p = some old.bytes → p ≠ src := by
    intro p hd hp he
    subst he
    rcases hsrc' hd with h | h
    · rw [FS.contents_of_read h, Option.some.injEq] at hp
      exact hdiff hp.symm
    · simp [FS.contents, h] at hp
  refine ⟨fun h => ?_, fun h => ?_⟩
  · obtain ⟨p, hp⟩ := h
    by_cases hd : p = dst
    · exact .inr (hd ▸ hp)
    · refine .inl ⟨p, hd, ?_⟩
      rw [FS.contents, ← hframe p (hnot' p hd hp) hd]
      exact hp
  · rcases h with ⟨p, hd, hp⟩ | hp
    · refine ⟨p, ?_⟩
      rw [FS.contents, hframe p (hnot p hp) hd]
      exact hp
    · exact ⟨dst, hp⟩

theorem CopyFault.Writes.leaves_iff {fault : CopyFault} {w : File} (hw : fault.Writes f w)
    (hdiff : old.bytes ≠ f.bytes) : fault.Leaves f.bytes old.bytes ↔ w.bytes = old.bytes := by
  cases hw with
  | faithful => simp [Leaves, hdiff.symm]
  | other b => exact Iff.rfl

theorem MoveEnd.dest_iff {fl : MoveFaults} (h : MoveEnd env fl src dst f fs fs')
    (hgo : ¬ fl.stopsEarly (env.sameDev src dst.dir)) (hdiff : old.bytes ≠ f.bytes) (hne : src ≠ dst) :
    fs'.contents dst = some old.bytes ↔ fl.Spares (env.sameDev src dst.dir) f.bytes old.bytes := by
  rw [MoveFaults.Spares, or_iff_right hgo]
  cases h with
  | renamed hmove =>
    rw [FS.contents_write_self, Option.some.injEq]
    exact ⟨fun he => absurd he.symm hdiff, fun he => absurd hmove he.1⟩
  | torn hmove hc =>
    rw [FS.contents_write_self, Option.some.injEq, hc, and_iff_right hmove]
    exact Iff.rfl
  | copied hmove hw _ =>
    rw [FS.contents, FS.read_remove_ne hne.symm, FS.read_write_self, and_iff_right hmove,
      hw.leaves_iff hdiff]
    exact Option.some_inj
  | undeleted hmove hw _ =>
    rw [FS.contents_write_self, and_iff_right hmove, hw.leaves_iff hdiff]
    exact Option.some_inj

theorem TransferEnd.dest_iff {fl : TransferFaults} {r : TransferResult}
    (h : TransferEnd env fl src dst f fs r fs')
    (hgo : ¬ fl.stopsEarly (env.sameDev src dst.dir)) (hdiff : old.bytes ≠ f.bytes) (hne : src ≠ dst) :
    fs'.contents dst = some old.bytes ↔ fl.Spares env.sha (env.sameDev src dst.dir)
      f.bytes old.bytes := by
  rw [TransferFaults.Spares, or_iff_right hgo]
  by_cases hdev : env.sameDev src dst.dir
  · have hgo' : ¬ fl.move.stopsEarly (env.sameDev src dst.dir) :=
      fun hstop => hgo (.inr (.inr (.inr (.inl ⟨hdev, hstop⟩))))
    rw [(h.moveEnd hdev).dest_iff hgo' hdiff hne, or_iff_left fun he => he.1 hdev, and_iff_right hdev]
  rw [or_iff_right fun he => hdev he.1, and_iff_right hdev]
  -- a copy that returned, when nothing throws it away
  have hwritten : ∀ w : File, fl.copy2.Writes f w → ¬ fl.discards env.sha f.bytes w.bytes →
      (some w.bytes = some old.bytes ↔
        fl.copy2.Leaves f.bytes old.bytes ∧ ∀ b, fl.copy2 = .corrupt b → ¬ fl.discards env.sha f.bytes b) := by
    intro w hw hdis
    rw [hw.leaves_iff hdiff, Option.some.injEq]
    refine ⟨fun he => ⟨he, fun b hb => ?_⟩, fun he => he.1⟩
    rw [hb] at hw
    cases hw
    exact hdis
  cases h with
  | renamed hmove | renamedUnhashed hmove => exact absurd hmove.1 hdev
  | fellBack hd | fellBackUnhashed hd | fellBackTorn hd | fellBackUndeleted hd => exact absurd hd hdev
  | torn _ hc =>
    rw [FS.contents_write_self, Option.some.injEq, hc]
    exact ⟨fun he => ⟨he, fun b hb => by cases hb⟩, fun he => he.1⟩
  | unverified _ hw hraise =>
    rw [FS.contents_write_self]
    refine hwritten _ hw fun hd => ?_
    obtain ⟨h1, h2, h3, -, -⟩ := hd
    simp [h1, h2, h3] at hraise
  | mismatch _ hw h1 h2 h3 hmis h5 =>
    rw [FS.contents, FS.read_remove_self]
    refine ⟨fun he => absurd he (by simp), fun he => ?_⟩
    have hb := (hw.leaves_iff hdiff).mp he.1
    cases hc : fl.copy2 <;> rw [hc] at hw <;> cases hw
    · exact absurd hb.symm hdiff
    · exact absurd ⟨h1, h2, h3, hmis, h5⟩ (he.2 _ hc)
  | mismatchKept _ hw _ _ _ _ h5 =>
    rw [FS.contents_write_self]
    exact hwritten _ hw fun hd => by rw [hd.2.2.2.2] at h5; cases h5
  | moved _ hw _ _ _ heq _ =>
    rw [FS.contents, FS.read_remove_ne hne.symm, FS.read_write_self]
    exact hwritten _ hw fun hd => hd.2.2.2.1 heq
  | undeleted _ hw _ _ _ heq _ =>
    rw [FS.contents_write_self]
    exact hwritten _ hw fun hd => hd.2.2.2.1 heq

/-- **What a `transfer_file` does to a different file at its destination.** -/
theorem transferFile_stored_iff (env : Env) (fl : TransferFaults) (dstDir : Dir)
    (hsrc : fs.read src = some f)
    (hold : fs.read ⟨dstDir, src.name⟩ = some old) (hdiff : old.bytes ≠ f.bytes) :
    (transferFile env fl src dstDir true fs).2.Stored old.bytes ↔
      Elsewhere fs ⟨dstDir, src.name⟩ old.bytes ∨ fl.Spares env.sha (env.sameDev src dstDir)
        f.bytes old.bytes := by
  have hne : src ≠ ⟨dstDir, src.name⟩ := fun he => hdiff (by
    rw [← he, hsrc, Option.some.injEq] at hold; rw [hold])
  rcases transferFile_ends env fl hne hsrc with ⟨hstop, e, he⟩ | ⟨hgo, r, fs', he, hend⟩
  · rw [he]
    exact ⟨fun _ => .inr (.inl hstop), fun _ => ⟨_, FS.contents_of_read hold⟩⟩
  · rw [he, stored_after_iff hsrc hdiff (fun p hs hd => hend.frame hs hd) (fun h => hend.source h hsrc),
      hend.dest_iff hgo hdiff hne]

/-- **What a `shutil.move` does to a different file at its destination.** -/
theorem shutilMove_stored_iff (env : Env) (fl : MoveFaults) (hsrc : fs.read src = some f)
    (hold : fs.read dst = some old) (hdiff : old.bytes ≠ f.bytes) :
    (after (shutilMove env fl src dst) fs).Stored old.bytes ↔
      Elsewhere fs dst old.bytes ∨ fl.Spares (env.sameDev src dst.dir) f.bytes old.bytes := by
  have hne : src ≠ dst := fun he => hdiff (by rw [← he, hsrc, Option.some.injEq] at hold; rw [hold])
  rcases shutilMove_ends env fl hne hsrc with ⟨hstop, he⟩ | ⟨hgo, hend⟩
  · rw [he]
    exact ⟨fun _ => .inr (.inl hstop), fun _ => ⟨_, FS.contents_of_read hold⟩⟩
  · rw [stored_after_iff hsrc hdiff (fun p hs hd => hend.frame hs hd) (fun h => hend.source h hsrc),
      hend.dest_iff hgo hdiff hne]

end

open MoveOldest in
/-- **When the old file survives.** For the mover: the run reaches its move and
the destination it chose holds other bytes than the target. For the exporter:
the same of `dst_dir/<name>`. In both, those bytes are still in the ring, the
backlog or on a drive afterwards exactly when they are stored under another
path as well or the schedule spares the destination. -/
theorem clobber_spared_iff (cfg : Config) (env : Env) (fs : FS) :
    (∀ (r : MoverRun) (target : Name) (f old : File),
      cfg.thresh ≤ (ringPcaps fs).length →
      pickOldestClosed r.now (captureAll fs r.between) = some target →
      (captureAll fs r.between).read ⟨.ring, target⟩ = some f →
      (captureAll fs r.between).read ⟨destDir cfg r, target⟩ = some old → old.bytes ≠ f.bytes →
      ((after (main cfg env r) fs).Stored old.bytes ↔
        Elsewhere (captureAll fs r.between) ⟨destDir cfg r, target⟩ old.bytes ∨
          (destDir cfg r ≠ .backlog ∧ r.mkdir ≠ none) ∨
          r.move.Spares (env.sameDev ⟨.ring, target⟩ (destDir cfg r)) f.bytes old.bytes)) ∧
    (∀ (fl : TransferFaults) (src : Path) (dstDir : Dir) (f old : File),
      fs.read src = some f → fs.read ⟨dstDir, src.name⟩ = some old → old.bytes ≠ f.bytes →
      ((transferFile env fl src dstDir true fs).2.Stored old.bytes ↔
        Elsewhere fs ⟨dstDir, src.name⟩ old.bytes ∨
          fl.Spares env.sha (env.sameDev src dstDir) f.bytes old.bytes)) := by
  refine ⟨fun r target f old hcount hpick hsrc hold hdiff => ?_,
    fun fl src dstDir f old => transferFile_stored_iff env fl dstDir⟩
  rcases main_cases cfg env r fs with ⟨hlt, _⟩ | ⟨_, hmain⟩
  · omega
  rw [hmain]
  rcases pickAndMove_cases cfg env r (captureAll fs r.between) with ⟨hnone, _⟩ | ⟨t, ht, h⟩
  · rw [hpick] at hnone; cases hnone
  rw [hpick, Option.some.injEq] at ht
  subst ht
  rcases h with ⟨hdest, hmk, h⟩ | ⟨hgo, h⟩
  · rw [h]
    exact ⟨fun _ => .inr (.inl ⟨hdest, hmk⟩), fun _ => ⟨_, FS.contents_of_read hold⟩⟩
  · have hmk : ¬ (destDir cfg r ≠ .backlog ∧ r.mkdir ≠ none) := by tauto
    rw [h, or_iff_right hmk]
    exact shutilMove_stored_iff env r.move hsrc hold hdiff

/-- A fresh capture `a` and an older file `b` of the same name, in the backlog
for the mover and on the drive for the exporter. Nothing fails, and `b` is nowhere. -/
theorem clobber_loses :
    let ring := (FS.empty.write ⟨.ring, "x.pcap"⟩ ⟨[0x61], 0⟩).write ⟨.ring, "y.pcap"⟩ ⟨[], 10⟩
    let backlog := FS.empty.write ⟨.backlog, "x.pcap"⟩ ⟨[0x61], 0⟩
    ¬ (after (MoveOldest.main { thresh := 2 } benchEnv
      { now := 20, mounts := noMounts, date := "20260101" })
        (ring.write ⟨.backlog, "x.pcap"⟩ ⟨[0x62], 0⟩)).Stored [0x62] ∧
      ¬ (transferFile benchEnv {} ⟨.backlog, "x.pcap"⟩ (.pcap "SEER_EXT" "20260101") true
        (backlog.write ⟨.pcap "SEER_EXT" "20260101", "x.pcap"⟩ ⟨[0x62], 0⟩)).2.Stored [0x62] := by
  decide +kernel

/-- A copy refused before the destination is opened spares the older file. -/
theorem clobber_spared_iff_refused :
    (transferFile benchEnv { copy2 := .refused "[Errno 30] Read-only file system" } ⟨.backlog, "x.pcap"⟩
      (.pcap "SEER_EXT" "20260101") true
      ((FS.empty.write ⟨.backlog, "x.pcap"⟩ ⟨[0x61], 0⟩).write
        ⟨.pcap "SEER_EXT" "20260101", "x.pcap"⟩ ⟨[0x62], 0⟩)).2.Stored [0x62] :=
  ((clobber_spared_iff { thresh := 2 } benchEnv _).2
    { copy2 := .refused "[Errno 30] Read-only file system" }
    ⟨.backlog, "x.pcap"⟩ (.pcap "SEER_EXT" "20260101") ⟨[0x61], 0⟩ ⟨[0x62], 0⟩ (by decide)
      (by decide) (by decide)).mpr
    (.inr (.inl (.inr (.inr (.inr (.inr ⟨by decide, rfl⟩))))))

end SeerSensor
