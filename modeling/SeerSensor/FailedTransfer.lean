/-
What a `transfer_file` that reports a failure leaves behind.

One `except` covers the whole body, so a failure is reported with whatever was
done before it in place: a rename that went through before the hash of its
result raised, a prefix left by a copy that broke off, also by the one that
falls in for a rename, a whole copy that nobody compared. The caller counts all
of them as files that stayed in the backlog. `failed_transfer_noop_iff` says
which calls are the no-op it takes them for.
-/
import SeerSensor.Clobber

namespace SeerSensor

open Raise

/-- On one device: the rename raises, and the destination held just what the copy of `new`
that falls in for it leaves there, the source being kept. The prefix it got to, or all it
wrote when the source cannot be unlinked. -/
def MoveFaults.Restores (fl : MoveFaults) (same : Prop) (new : Bytes) (old : Option Bytes) : Prop :=
  ¬ fl.renames same ∧ match fl.copy2 with
    | .none => fl.unlink ≠ none ∧ old = some new
    | .refused _ => False
    | .torn n _ _ => old = some (new.take n)
    | .corrupt b => fl.unlink ≠ none ∧ old = some b

/-- Across devices: the destination held, or lacked, just what the failing copy
of `new` leaves there. The prefix it got to; the bad copy, or nothing where
that was found out and removed; the whole of a good one. -/
def TransferFaults.Restores (fl : TransferFaults) (H : Hash.Incremental) (new : Bytes)
    (old : Option Bytes) : Prop :=
  match fl.copy2 with
  | .none => old = some new
  | .refused _ => False
  | .torn n _ _ => old = some (new.take n)
  | .corrupt b => fl.discards H new b ∧ old = none ∨ ¬ fl.discards H new b ∧ old = some b

/-- Under this schedule a `transfer_file` of `new` over `old` that fails has
changed nothing: it raises before it could, or does not fail, or moves the
file onto itself, or ends where it began. -/
def TransferFaults.FailsClean (fl : TransferFaults) (H : Hash.Incremental) (same self : Prop)
    (new : Bytes) (old : Option Bytes) : Prop :=
  fl.stopsEarly same ∨ fl.succeeds H same new ∨ self ∨ same ∧ fl.move.Restores same new old ∨
    ¬ same ∧ fl.Restores H new old

section
variable {env : Env} {fl : TransferFaults} {src dst : Path} {f : File} {fs fs' : FS} {r : TransferResult}

theorem CopyFault.Writes.restores_iff {H : Hash.Incremental} {w : File} {old : Option Bytes}
    (hw : fl.copy2.Writes f w) (hkept : ¬ fl.discards H f.bytes w.bytes) :
    fl.Restores H f.bytes old ↔ some w.bytes = old := by
  unfold TransferFaults.Restores
  generalize hc : fl.copy2 = fault at hw
  cases hw with
  | faithful => exact eq_comm
  | other b =>
    simp only [hkept, false_and, not_false_eq_true, true_and, false_or]
    exact eq_comm

theorem TransferEnd.dest_kept_iff (h : TransferEnd env fl src dst f fs r fs')
    (hdev : ¬ env.sameDev src dst.dir) (hr : r.success = false) (old : Option Bytes) :
    fs'.contents dst = old ↔ fl.Restores env.sha f.bytes old := by
  cases h with
  | renamed hmove | renamedUnhashed hmove => exact absurd hmove.1 hdev
  | fellBack hd | fellBackUnhashed hd | fellBackTorn hd | fellBackUndeleted hd => exact absurd hd hdev
  | moved => cases hr
  | torn _ hc =>
    rw [FS.contents_write_self, TransferFaults.Restores, hc]
    exact eq_comm
  | unverified _ hw hraise =>
    rw [FS.contents_write_self, hw.restores_iff fun hd => ?_]
    obtain ⟨h₁, h₂, h₃, -, -⟩ := hd
    simp [h₁, h₂, h₃] at hraise
  | mismatchKept _ hw _ _ _ _ hu =>
    rw [FS.contents_write_self, hw.restores_iff fun hd => ?_]
    cases hd.2.2.2.2.symm.trans hu
  | undeleted _ hw _ _ _ heq _ =>
    rw [FS.contents_write_self, hw.restores_iff fun hd => hd.2.2.2.1 heq]
  | mismatch _ hw h₁ h₂ h₃ hmis hu =>
    -- only other bytes than the source's have another hash
    rw [FS.contents, FS.read_remove_self, TransferFaults.Restores]
    generalize hc : fl.copy2 = fault at hw
    cases hw with
    | faithful => exact absurd rfl hmis
    | other b =>
      have hd : fl.discards env.sha f.bytes b := ⟨h₁, h₂, h₃, hmis, hu⟩
      simp only [hd, not_true_eq_false, false_and, true_and, or_false]
      exact eq_comm

/-- On one device a call that fails leaves both ends as they were exactly where its move
restores them. -/
theorem TransferEnd.failed_within (h : TransferEnd env fl src dst f fs r fs')
    (hdev : env.sameDev src dst.dir) (hne : src ≠ dst) (hsrc : fs.read src = some f)
    (hr : r.success = false) (old : Option Bytes) :
    (fs'.contents src = some f.bytes ∧ fs'.contents dst = old) ↔
      fl.move.Restores (env.sameDev src dst.dir) f.bytes old := by
  have hkept : ∀ w : File, (fs.write dst w).contents src = some f.bytes := by
    intro w
    rw [FS.contents_write_ne hne, FS.contents_of_read hsrc]
  unfold MoveFaults.Restores
  cases h with
  | renamed | fellBack => cases hr
  | renamedUnhashed hmove =>
    rw [FS.contents, FS.read_write_ne hne, FS.read_remove_self]
    exact ⟨fun h => absurd h.1 (by simp), fun h => absurd hmove h.1⟩
  | fellBackUnhashed _ hrename hw hul =>
    -- the source is gone
    rw [FS.contents, FS.read_remove_self]
    refine ⟨fun h => absurd h.1 (by simp), fun h => ?_⟩
    generalize fl.move.copy2 = fault at hw h
    cases hw with
    | faithful => exact absurd hul h.2.1
    | other b => exact absurd hul h.2.1
  | fellBackTorn _ hrename hc =>
    have hmove : ¬ fl.move.renames (env.sameDev src dst.dir) := fun hmove => hrename hmove.2
    rw [hkept, FS.contents_write_self, hc, and_iff_right rfl, and_iff_right hmove]
    exact eq_comm
  | fellBackUndeleted _ hrename hw hul =>
    have hmove : ¬ fl.move.renames (env.sameDev src dst.dir) := fun hmove => hrename hmove.2
    have hraised : fl.move.unlink ≠ none := by rw [hul]; exact Option.some_ne_none _
    rw [hkept, FS.contents_write_self, and_iff_right rfl, and_iff_right hmove]
    generalize fl.move.copy2 = fault at hw
    cases hw with
    | faithful => exact ⟨fun h => ⟨hraised, h.symm⟩, fun h => h.2.symm⟩
    | other b => exact ⟨fun h => ⟨hraised, h.symm⟩, fun h => h.2.symm⟩
  | torn hd | unverified hd | mismatch hd | mismatchKept hd | moved hd | undeleted hd =>
    exact absurd hdev hd

end

/-- **When a failed transfer is a no-op.** For every file, every destination, on
the same device or another, and every schedule of what raises: a call that
reports a failure has left the source its bytes and the destination as it was
exactly when the schedule fails clean. -/
theorem failed_transfer_noop_iff (env : Env) (fl : TransferFaults) (src : Path) (dstDir : Dir) (fs : FS)
    (f : File) (hsrc : fs.read src = some f) :
    let out := transferFile env fl src dstDir true fs
    let dst : Path := ⟨dstDir, src.name⟩
    (out.1.success = false → out.2.contents src = some f.bytes ∧ out.2.contents dst = fs.contents dst) ↔
      fl.FailsClean env.sha (env.sameDev src dstDir) (src = dst) f.bytes (fs.contents dst) := by
  intro out dst
  by_cases hself : src = dst
  · have hdir : dstDir = src.dir := (congrArg Path.dir hself).symm
    have hread : out.2.read = fs.read := by
      show (transferFile env fl src dstDir true fs).2.read = fs.read
      rw [hdir, transferFile_self env fl hsrc]
    refine ⟨fun _ => .inr (.inr (.inl hself)), fun _ _ => ?_⟩
    rw [FS.contents, FS.contents, hread]
    exact ⟨FS.contents_of_read hsrc, rfl⟩
  rcases transferFile_ends env fl hself hsrc with ⟨hstop, e, he⟩ | ⟨hgo, r, fs', he, hend⟩
  · have hout : out = (⟨false, none, some e⟩, fs) := he
    rw [hout]
    exact ⟨fun _ => .inl hstop, fun _ _ => ⟨FS.contents_of_read hsrc, rfl⟩⟩
  · have hout : out = (r, fs') := he
    rw [hout, TransferFaults.FailsClean, or_iff_right hgo, ← hend.success_iff hgo]
    cases hr : r.success with
    | true => simp
    | false =>
      simp only [true_implies, Bool.false_eq_true, false_or]
      rw [or_iff_right hself]
      by_cases hdev : env.sameDev src dstDir
      · rw [hend.failed_within hdev hself hsrc hr, or_iff_left (fun h => h.1 hdev), and_iff_right hdev]
      · rw [or_iff_right (fun h => hdev h.1), and_iff_right hdev, ← hend.dest_kept_iff hdev hr,
          FS.contents_of_read (hend.source_kept hsrc hself hdev hr)]
        exact and_iff_right rfl

/-- A copy that breaks off leaves its first byte on the drive; a rename whose
result cannot be hashed has emptied the backlog. Both are reported as failures. -/
theorem failed_transfer_changes :
    let fs := FS.empty.write ⟨.backlog, "x.pcap"⟩ ⟨[0x61, 0x62], 0⟩
    let torn := transferFile benchEnv { copy2 := .torn 1 20 "[Errno 28] No space left on device" }
      ⟨.backlog, "x.pcap"⟩ (.pcap "SEER_EXT" "20260101") true fs
    let unhashed := transferFile { benchEnv with dev := fun _ => 0 }
      { hashDst := some "[Errno 5] Input/output error" }
      ⟨.backlog, "x.pcap"⟩ (.pcap "SEER_EXT" "20260101") true fs
    (torn.1.success = false ∧
      torn.2.contents ⟨.pcap "SEER_EXT" "20260101", "x.pcap"⟩ = some [0x61]) ∧
    (unhashed.1.success = false ∧ unhashed.2.contents ⟨.backlog, "x.pcap"⟩ = none) := by
  decide +kernel

/-- A bad copy that is found out and removed, where there was nothing before. -/
theorem failed_transfer_noop_discarded :
    let fs := FS.empty.write ⟨.backlog, "x.pcap"⟩ ⟨[0x61], 0⟩
    let out := transferFile benchEnv { copy2 := .corrupt [0x62] } ⟨.backlog, "x.pcap"⟩
      (.pcap "SEER_EXT" "20260101") true fs
    out.1.success = false ∧ out.2.contents ⟨.backlog, "x.pcap"⟩ = some [0x61] ∧
      out.2.contents ⟨.pcap "SEER_EXT" "20260101", "x.pcap"⟩ = none := by
  intro fs out
  have hfail : out.1.success = false := by decide +kernel
  have hclean := (failed_transfer_noop_iff benchEnv { copy2 := .corrupt [0x62] } ⟨.backlog, "x.pcap"⟩
    (.pcap "SEER_EXT" "20260101") fs ⟨[0x61], 0⟩ (by decide +kernel)).mpr
    (.inr (.inr (.inr (.inr ⟨by decide +kernel,
      .inl ⟨⟨rfl, rfl, rfl, by decide +kernel, rfl⟩, by decide +kernel⟩⟩)))) hfail
  exact ⟨hfail, hclean.1, hclean.2⟩

end SeerSensor
