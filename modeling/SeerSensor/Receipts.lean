/-
What the exporter's receipts are worth. `transfer_file` compares the two ends
of its own copy, so `OK` in the log and a line in the manifest say that the
drive has what the backlog had. Whether that was the capture is another
matter: the backlog also holds the leftovers of copies that failed on their
way there, under the final name.

A receipt is a log line with `OK` whose file the manifest lists after the
pass, with what the pass left on the drive under that name.
-/
import SeerSensor.Pipeline

namespace SeerSensor.Receipts

open MoveOldest Pipeline Raise

/-- A file said to be exported, and what was then under its name on the drive. -/
structure Receipt where
  name : Name
  placed : Option Bytes
  deriving DecidableEq

/-- The pipeline and every receipt so far. -/
structure Books where
  world : World
  receipts : List Receipt := []

/-- A line `sha256  name`. -/
def listed (manifest : Option (List String)) (n : Name) : Bool :=
  (manifest.getD []).any fun line => ("  " ++ n).toList.isSuffixOf line.toList

/-- The receipts a pass added, for files it sent to `dest`. -/
def newReceipts (drive : Drive) (dest : Dir) (before after : Disk) : List Receipt :=
  (((after.transferLog drive).drop (before.transferLog drive).length).filter fun e =>
    e.result = .ok && listed (after.manifest dest) e.src.name).map fun e =>
      ⟨e.src.name, after.fs.contents ⟨dest, e.src.name⟩⟩

/-- Every copy of the pass writes what it is given. -/
def Honest (d : Disk) (inp : BatchInput) : Prop :=
    ∀ n ∈ backlogPcaps d.fs, (inp.turn n).transfer.Honest

instance (d : Disk) (inp : BatchInput) : Decidable (Honest d inp) :=
    inferInstanceAs (Decidable (∀ n ∈ _, _))

/-- One `export_batch` pass to the drive that is mounted. -/
def Books.pass (env : Env) (rotate : ℚ) (b : Books) (inp : BatchInput) : Option Books :=
  match b.world.mounted with
  | none => none
  | some drive =>
    if Honest b.world.disk inp then
      let disk := after (exportBatch env rotate inp drive) b.world.disk
      some ⟨{ b.world with disk := disk }, b.receipts ++ newReceipts drive (.pcap drive inp.date)
        b.world.disk disk⟩
    else
      none

/-- What happens, and passes of the exporter. -/
inductive Act where
  | event (e : Event)
  | pass (inp : BatchInput)

/-- A pass adds its receipts. -/
def step (cfg : Config) (env : Env) (rotate : ℚ) (b : Books) : Act → Option Books
  | .event e => (b.world.event cfg env e).map fun w => { b with world := w }
  | .pass inp => b.pass env rotate inp

/-- What was receipted was placed complete. -/
def Truthful (b : Books) : Prop := ∀ r ∈ b.receipts, ∃ c, (r.name, c) ∈ b.world.captured ∧
    r.placed = some c

/-- Every file of the backlog that the pass lets through and that meets no
fault is a complete capture. -/
def Complete (env : Env) (rotate : ℚ) (b : Books) : Act → Prop
  | .event _ => True
  | .pass inp => ∀ drive n f c, b.world.mounted = some drive → n ∈ backlogPcaps b.world.disk.fs →
      turnActive rotate inp b.world.disk.fs n = false → b.world.disk.fs.read ⟨.backlog, n⟩ = some f →
      (inp.turn n).transfer.succeeds env.sha (env.sameDev ⟨.backlog, n⟩ (.pcap drive inp.date))
        f.bytes →
      (n, c) ∈ b.world.captured → f.bytes = c

section
variable {cfg : Config} {env : Env} {rotate : ℚ} {inp : BatchInput} {drive : Drive} {d d' : Disk}
  {b b' : Books} {r : Receipt}

/-- A turn logged as `OK` was let through and met no fault, and the drive has
the bytes of the backlog. -/
theorem entry_ok {dest : Dir} {n : Name} {fs : FS} {entry : LogEntry}
    (hh : (inp.turn n).transfer.Honest)
    (hdest : dest ≠ .backlog) (h : turnEntry env rotate inp dest fs n = some entry)
    (hok : entry.result = .ok) :
    entry.src.name = n ∧ turnActive rotate inp fs n = false ∧ ∃ f, fs.read ⟨.backlog, n⟩ = some f ∧
      (inp.turn n).transfer.succeeds env.sha (env.sameDev ⟨.backlog, n⟩ dest) f.bytes ∧
      (turnFs env rotate inp dest fs n).contents ⟨dest, n⟩ = some f.bytes := by
  have hne : (⟨.backlog, n⟩ : Path) ≠ ⟨dest, n⟩ := Path.ne_of_dir hdest.symm
  unfold turnEntry at h
  split at h
  · cases h
  next hact =>
    replace hact : turnActive rotate inp fs n = false := by simpa using hact
    cases h
    obtain ⟨f, hf⟩ := turnActive_found hact
    have hsucc : (turnOut env inp dest fs n).1.success = true := by
      by_contra hfail
      simp only [logEntry, logResult, if_neg hfail] at hok
      split at hok <;> cases hok
    refine ⟨rfl, hact, f, hf, (transferFile_success_iff env _ hne hf).mp hsucc, ?_⟩
    simp only [turnFs, hact, Bool.false_eq_true, if_false]
    rcases transferFile_ends env (inp.turn n).transfer hne hf with ⟨_, e, he⟩ | ⟨_, r, fs', he, hend⟩
    · rw [turnOut, he] at hsucc; cases hsucc
    · rw [turnOut, he] at hsucc ⊢
      exact (hend.success hne (fun b hb _ => absurd hb (hh.copy2 b)) (fun _ => hh.move) hsucc).2.2.2

theorem newReceipts_mem (hh : Honest d inp)
    (hr : r ∈ newReceipts drive (.pcap drive inp.date) d (after (exportBatch env rotate inp drive) d)) :
    r.name ∈ backlogPcaps d.fs ∧ turnActive rotate inp d.fs r.name = false ∧ ∃ f,
      d.fs.read ⟨.backlog, r.name⟩ = some f ∧
      (inp.turn r.name).transfer.succeeds env.sha
        (env.sameDev ⟨.backlog, r.name⟩ (.pcap drive inp.date)) f.bytes ∧
      r.placed = some f.bytes := by
  unfold newReceipts at hr
  simp only [List.mem_map, List.mem_filter, Bool.and_eq_true, decide_eq_true_eq] at hr
  obtain ⟨entry, ⟨hnew, hok, -⟩, rfl⟩ := hr
  cases h : exportBatch env rotate inp drive d with
  | error e d' =>
    -- a pass that raised wrote no receipts
    have hlog : d'.transferLog = d.transferLog := by
      rcases exportBatch_error h with rfl | hloop
      · rfl
      · exact exportLoop_error_log hloop
    rw [after_error h, hlog, List.drop_length] at hnew
    cases hnew
  | ok counts d' =>
    obtain ⟨acc, d₁, hloop, rfl, -⟩ := exportBatch_ok h
    rw [after_ok h] at hnew ⊢
    obtain ⟨-, hown, -, -, hentries, -, hlog⟩ := exportLoop_ok (backlogPcaps_nodup d.fs) hloop
    obtain ⟨written, hsub, hwritten⟩ := writeReceipts_log inp drive (.pcap drive inp.date) acc d₁
    rw [hwritten, hlog, List.drop_left] at hnew
    have hmem := hsub hnew
    rw [hentries, List.nil_append, List.mem_filterMap] at hmem
    obtain ⟨n, hn, hentry⟩ := hmem
    obtain ⟨hname, hact, f, hf, hsucc, hplaced⟩ := entry_ok (hh n hn) (by simp) hentry hok
    rw [hname]
    refine ⟨hn, hact, f, hf, hsucc, ?_⟩
    rw [writeReceipts_fs, FS.contents, hown n hn _ (.inr rfl)]
    exact hplaced

theorem pass_eq (h : b.pass env rotate inp = some b') :
    ∃ drive, b.world.mounted = some drive ∧ Honest b.world.disk inp ∧
      b'.world = { b.world with disk := after (exportBatch env rotate inp drive) b.world.disk } ∧
      b'.receipts = b.receipts ++ newReceipts drive (.pcap drive inp.date)
        b.world.disk b'.world.disk := by
  unfold Books.pass at h
  split at h
  · cases h
  next drive hmount =>
    split at h
    next hh =>
      cases h
      exact ⟨drive, hmount, hh, rfl, rfl⟩
    · cases h

theorem step_traced (ht : Traced b.world.captured b.world.disk.fs) {a : Act}
    (h : step cfg env rotate b a = some b') :
    Traced b'.world.captured b'.world.disk.fs := by
  cases a with
  | event e =>
    obtain ⟨w, hw, rfl⟩ := Option.map_eq_some_iff.mp h
    exact event_traced ht hw
  | pass inp =>
    obtain ⟨drive, -, hh, hworld, -⟩ := pass_eq h
    rw [hworld]
    exact exportBatch_preserves (P := Traced b.world.captured)
      (fun n hn fs ht => ht.exported (turnFs_carry (hh n hn) (by simp)) (by simp) (by simp)) ht

theorem captured_grows {e : Event} {w w' : World} (h : w.event cfg env e = some w') :
    w.captured ⊆ w'.captured := by
  cases e with
  | capture n f =>
    simp only [World.event] at h
    split at h
    · cases h
    · cases h
      exact List.subset_append_left _ _
  | mover r =>
    simp only [World.event] at h
    split at h
    · cases h; exact fun _ hx => hx
    · cases h
  | mount drive => cases h; exact fun _ hx => hx
  | day date => cases h; exact fun _ hx => hx

theorem step_truthful (ht : Traced b.world.captured b.world.disk.fs) (hb : Truthful b) {a : Act}
    (hc : Complete env rotate b a) (h : step cfg env rotate b a = some b') : Truthful b' := by
  cases a with
  | event e =>
    obtain ⟨w, hw, rfl⟩ := Option.map_eq_some_iff.mp h
    intro r hr
    obtain ⟨c, hcap, hplaced⟩ := hb r hr
    exact ⟨c, captured_grows hw hcap, hplaced⟩
  | pass inp =>
    obtain ⟨drive, hmount, hh, hworld, hreceipts⟩ := pass_eq h
    intro r hr
    rw [hreceipts, hworld, List.mem_append] at hr
    rw [hworld]
    rcases hr with hold | hnew
    · exact hb r hold
    · obtain ⟨hn, hact, f, hf, hsucc, hplaced⟩ := newReceipts_mem hh hnew
      obtain ⟨c, hcap, -⟩ := ht.backlog r.name f.bytes (FS.contents_of_read hf)
      exact ⟨c, hcap, by rw [hplaced, hc drive r.name f c hmount hn hact hf hsucc hcap]⟩

end

/-- **When receipts are truthful.** From an empty ring and backlog, in every run
of captures, runs of the mover, passes, drives coming and going and new days,
with every copy faithful, torn or not followed by its unlink: if each pass
finds the files that it gets through complete in the backlog, then in every
state of the run whatever was logged as `OK` and listed had placed the complete
capture on the drive. -/
theorem receipts_truthful (cfg : Config) (env : Env) (rotate : ℚ) (b : Books) (hstart : b.world.Start)
    (hnone : b.receipts = []) (acts : List Act)
    (hcomplete : Runs.Meets (step cfg env rotate) (Complete env rotate) b acts) :
    Runs.Always (step cfg env rotate) Truthful b acts := by
  have hsafe : Runs.Always (step cfg env rotate)
      (fun b => Traced b.world.captured b.world.disk.fs ∧ Truthful b) b acts := by
    refine Runs.always_of_meets (fun b a b' hb hc h => ?_) ⟨hstart.traced, fun r hr => ?_⟩ hcomplete
    · exact ⟨step_traced hb.1 h, step_truthful hb.1 hb.2 hc h⟩
    · rw [hnone] at hr
      cases hr
  exact hsafe.mono fun _ h => h.2

/-- Two captures, a run of the mover whose copy to the backlog ends as given,
a drive, and a pass. -/
def benchRun (copy2 : CopyFault) : List Act :=
  [.event (.capture "a.pcap" ⟨[0x61, 0x62], 0⟩), .event (.capture "b.pcap" ⟨[0x62], 20⟩),
    .event (.mover { now := 30, mounts := noMounts, date := "20260101", move := { copy2 := copy2 } }),
    .event (.mount (some "SEER_EXT")), .pass { date := "20260101", turn := fun _ => { now := 100 } }]

def benchStart : Books where
  world := { disk := { fs := .empty }, mounted := none, date := "20260101" }

/-- The files of `benchRun .none` when the pass begins. -/
def benchStaged : FS :=
  after (main { thresh := 2 } benchEnv { now := 30, mounts := noMounts, date := "20260101" })
    ((FS.empty.write ⟨.ring, "a.pcap"⟩ ⟨[0x61, 0x62], 0⟩).write ⟨.ring, "b.pcap"⟩ ⟨[0x62], 20⟩)

theorem receipts_truthful_faultless :
    Runs.Always (step { thresh := 2 } benchEnv 20) Truthful benchStart (benchRun .none) := by
  refine receipts_truthful { thresh := 2 } benchEnv 20 benchStart ⟨rfl, rfl, rfl⟩ rfl _ fun b₁ h₁ =>
    ⟨trivial, ?_⟩
  refine fun b₂ h₂ => ⟨trivial,
    fun b₃ h₃ => ⟨trivial, fun b₄ h₄ => ⟨trivial, fun b₅ _ => ⟨?_, trivial⟩⟩⟩⟩
  cases h₁
  cases h₂
  cases h₃
  cases h₄
  intro drive n f c _ hn _ hf _ hcap
  have hstaged : ∀ n ∈ backlogPcaps benchStaged, n = "a.pcap" ∧
    benchStaged.read ⟨.backlog, n⟩ = some ⟨[0x61, 0x62], 0⟩ := by
    decide +kernel
  obtain ⟨rfl, hread⟩ := hstaged n hn
  obtain rfl : c = [0x61, 0x62] := by simpa [benchStart] using hcap
  exact congrArg File.bytes (Option.some.inj (hf.symm.trans hread))

/-- The copy to the backlog stops after one byte of two. Half a minute later the
exporter logs that byte as `OK` and lists it. -/
theorem receipt_for_truncated_leftover :
    ∃ b, Runs.run (step { thresh := 2 } benchEnv 20) benchStart
      (benchRun (.torn 1 30 "[Errno 28] No space left on device")) =
        some b ∧
      ("a.pcap", [0x61, 0x62]) ∈ b.world.captured ∧ (⟨"a.pcap", some [0x61]⟩ : Receipt)
        ∈ b.receipts := by
  have hran : (Runs.run (step { thresh := 2 } benchEnv 20) benchStart
        (benchRun (.torn 1 30 "[Errno 28] No space left on device"))).map
      (fun b => (decide (("a.pcap", [0x61, 0x62]) ∈ b.world.captured), b.receipts)) =
      some (true, [⟨"a.pcap", some [0x61]⟩]) := by decide +kernel
  obtain ⟨b, hrun, hb⟩ := Option.map_eq_some_iff.mp hran
  obtain ⟨hcap, hreceipts⟩ := Prod.mk.inj hb
  exact ⟨b, hrun, of_decide_eq_true hcap, by rw [hreceipts]; simp⟩

end SeerSensor.Receipts
