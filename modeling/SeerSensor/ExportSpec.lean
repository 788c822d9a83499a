/-
What one `export_batch` does, as a whole.

With nothing in its way but transfers that fail cleanly, a pass is decided by
the files it finds: those old enough are `due`, those of them whose transfer
succeeds are `delivered`, and `Exported` says what the counts, the backlog, the
dated directory, the manifest and the log then are. The turns of a pass do not
see each other (`exportLoop_ok`), so each field of it is a fact about one turn.
-/
import SeerSensor.ExportBatchFacts

namespace SeerSensor

open Raise

/-- The `*.pcap*` files of the backlog that are at least `1.5 * rotate_seconds`
old when their turn comes, in name order. -/
def due (rotate : ℚ) (inp : BatchInput) (fs : FS) : List Name :=
  (backlogPcaps fs).filter fun n =>
    (fs.read ⟨.backlog, n⟩).any fun f => decide (rotate * (3 / 2) ≤ (inp.turn n).now - f.mtime)

/-- Those of them whose transfer succeeds. -/
def delivered (env : Env) (rotate : ℚ) (inp : BatchInput) (dest : Dir) (fs : FS) : List Name :=
  (due rotate inp fs).filter fun n => (turnOut env inp dest fs n).1.success

/-- The hash of what is at the path. -/
def digestAt (env : Env) (fs : FS) (p : Path) : String := ((fs.contents p).map env.sha.digest).getD ""

/-- Nothing else touches the two directories, what is written about the pass is
written, and a transfer that fails keeps its source and leaves nothing at its
destination; no copy passes for a good one that is not. -/
structure Undisturbed (env : Env) (rotate : ℚ) (inp : BatchInput) (dest : Dir) (fs : FS) : Prop where
  glob : inp.glob = none
  getmtime : ∀ n, (inp.turn n).getmtime = none
  stat : ∀ n, (inp.turn n).stat = none
  manifest : inp.manifest = .none
  log : inp.log = .none
  /-- SHA-256 tells a file from what a copy wrote in its place. -/
  sha : ∀ n ∈ due rotate inp fs, ∀ f b, fs.read ⟨.backlog, n⟩ = some f →
    (inp.turn n).transfer.copy2 = .corrupt b → env.sha.digest f.bytes = env.sha.digest b → b = f.bytes
  /-- A `shutil.move` that cannot rename copies what it is given. -/
  move : ∀ n ∈ due rotate inp fs, (inp.turn n).transfer.move.rename ≠ none →
    (inp.turn n).transfer.move.copy2.Honest
  failed : ∀ n ∈ due rotate inp fs, (turnOut env inp dest fs n).1.success = false →
    (turnOut env inp dest fs n).2.read ⟨.backlog, n⟩ = fs.read ⟨.backlog, n⟩ ∧
      (turnOut env inp dest fs n).2.read ⟨dest, n⟩ = fs.read ⟨dest, n⟩

/-- A pass to `pcap/<date>` of `drive` that returned `(s, f)`. -/
structure Exported (env : Env) (rotate : ℚ) (inp : BatchInput) (drive : Drive) (d : Disk) (s f : Nat)
    (d' : Disk) : Prop where
  total : s + f = (due rotate inp d.fs).length
  succeeded : s = (delivered env rotate inp (.pcap drive inp.date) d.fs).length
  /-- The backlog is the active files and the failed ones, as they were. -/
  backlog : ∀ n, d'.fs.read ⟨.backlog, n⟩ =
    if n ∈ delivered env rotate inp (.pcap drive inp.date) d.fs then none else d.fs.read ⟨.backlog, n⟩
  /-- The delivered files are on the drive with their bytes. -/
  arrived : ∀ n ∈ delivered env rotate inp (.pcap drive inp.date) d.fs,
    d'.fs.contents ⟨.pcap drive inp.date, n⟩ = d.fs.contents ⟨.backlog, n⟩
  /-- And every other file, there and elsewhere, is untouched. -/
  others : ∀ p, p.dir ≠ .backlog →
    (p.dir = .pcap drive inp.date → p.name ∉ delivered env rotate inp (.pcap drive inp.date) d.fs) →
    d'.fs.read p = d.fs.read p
  manifest : d'.manifest (.pcap drive inp.date) = if s = 0 then d.manifest (.pcap drive inp.date) else
    some (manifestHeader inp.generated ++
      (delivered env rotate inp (.pcap drive inp.date) d.fs).map fun n =>
        digestAt env d'.fs ⟨.pcap drive inp.date, n⟩ ++ "  " ++ n)
  manifests : ∀ dir, dir ≠ .pcap drive inp.date → d'.manifest dir = d.manifest dir
  log : ∃ entries, d'.transferLog drive = d.transferLog drive ++ entries ∧
    entries.map (·.src) = (due rotate inp d.fs).map (fun n => ⟨.backlog, n⟩) ∧
    (entries.filter fun e => e.result = .ok).map (·.src) =
      (delivered env rotate inp (.pcap drive inp.date) d.fs).map (fun n => ⟨.backlog, n⟩)
  logs : ∀ v, v ≠ drive → d'.transferLog v = d.transferLog v
  /-- Name order, each name once. -/
  ordered : (due rotate inp d.fs).Pairwise (· < ·)

section
variable {env : Env} {rotate : ℚ} {inp : BatchInput} {dest : Dir} {n : Name} {fs : FS} {d d' : Disk}
  {acc acc' : Batch}

/-! ## Which files -/

theorem backlogPcaps_ordered (fs : FS) : (backlogPcaps fs).Pairwise (· < ·) := by
  have hsorted : (backlogPcaps fs).Pairwise (· ≤ ·) := List.pairwise_insertionSort _ _
  refine hsorted.imp₂ (fun a b hle hne => lt_of_le_of_ne hle hne) (backlogPcaps_nodup fs)

theorem due_ordered (rotate : ℚ) (inp : BatchInput) (fs : FS) : (due rotate inp fs).Pairwise (· < ·) :=
  (backlogPcaps_ordered fs).filter _

theorem due_eq (hmtime : ∀ n, (inp.turn n).getmtime = none) :
    due rotate inp fs = (backlogPcaps fs).filter fun n => !turnActive rotate inp fs n := by
  refine List.filter_congr fun n hn => ?_
  obtain ⟨⟨f, hf⟩, -⟩ := mem_backlogPcaps.mp hn
  simp only [turnActive, isFileActive, hmtime, hf, Option.any_some, ← decide_not]
  exact decide_eq_decide.mpr Rat.not_lt.symm

theorem filterMap_guard {α β : Type} (p : α → Bool) (g : α → β) (l : List α) :
    (l.filterMap fun a => if p a then some (g a) else none) = (l.filter p).map g := by
  rw [← List.filterMap_eq_filter, List.map_filterMap]
  refine List.filterMap_congr fun a _ => ?_
  cases h : p a <;> simp [Option.guard, h]

theorem filterMap_turnReceipt (env : Env) (rotate : ℚ) (dest : Dir) (fs : FS)
    (hmtime : ∀ n, (inp.turn n).getmtime = none) :
    (backlogPcaps fs).filterMap (turnReceipt env rotate inp dest fs) =
      (delivered env rotate inp dest fs).map fun n =>
        (n, (turnOut env inp dest fs n).1.sha256.getD "") := by
  rw [delivered, due_eq hmtime, List.filter_filter, ← filterMap_guard]
  refine List.filterMap_congr fun n _ => ?_
  unfold turnReceipt
  cases turnActive rotate inp fs n <;> cases (turnOut env inp dest fs n).1.success <;> rfl

theorem filterMap_turnEntry (env : Env) (rotate : ℚ) (dest : Dir) (fs : FS)
    (hmtime : ∀ n, (inp.turn n).getmtime = none) :
    (backlogPcaps fs).filterMap (turnEntry env rotate inp dest fs) =
      (due rotate inp fs).map fun n => logEntry inp dest n (turnOut env inp dest fs n).1
        ((turnOut env inp dest fs n).2.read ⟨.backlog, n⟩) := by
  rw [due_eq hmtime, ← filterMap_guard]
  refine List.filterMap_congr fun n _ => ?_
  unfold turnEntry
  cases turnActive rotate inp fs n <;> rfl

/-! ## The counts -/

/-- The counters agree with the lists. -/
def Batch.Counted (acc : Batch) : Prop :=
  acc.successCount = acc.transferred.length ∧ acc.successCount + acc.failCount = acc.entries.length

theorem Batch.Counted.add (h : acc.Counted) (n : Name) (r : TransferResult) (entry : LogEntry) :
    (acc.add n r entry).Counted := by
  obtain ⟨hs, hsf⟩ := h
  unfold Batch.Counted Batch.add
  cases r.success with
  | true =>
    simp only [if_true, List.length_append, List.length_singleton]
    omega
  | false =>
    simp only [Bool.false_eq_true, if_false, List.append_nil, List.length_append, List.length_singleton]
    omega

theorem exportTurn_counted (h : exportTurn env rotate inp dest acc n d = .ok acc' d')
    (hacc : acc.Counted) : acc'.Counted := by
  unfold exportTurn at h
  dsimp only at h
  split at h
  · cases h; exact hacc
  · split at h
    · cases h
    · cases h; exact hacc.add _ _ _

theorem exportLoop_counted {ns : List Name} (h : exportLoop env rotate inp dest ns acc d = .ok acc' d')
    (hacc : acc.Counted) : acc'.Counted := by
  induction ns generalizing acc d with
  | nil => cases h; exact hacc
  | cons n ns ih =>
    obtain ⟨acc₁, d₁, hturn, hrest⟩ := bind_ok.mp h
    exact ih hrest (exportTurn_counted hturn hacc)

/-! ## One file -/

/-- A file due whose transfer succeeds: its source is gone and its bytes are at
the destination, with their hash returned. -/
theorem turn_delivered (h : Undisturbed env rotate inp dest fs) (hdest : dest ≠ .backlog)
    (hn : n ∈ delivered env rotate inp dest fs) :
    (turnOut env inp dest fs n).2.read ⟨.backlog, n⟩ = none ∧
      ∃ f, fs.read ⟨.backlog, n⟩ = some f ∧
        (turnOut env inp dest fs n).2.contents ⟨dest, n⟩ = some f.bytes ∧
        (turnOut env inp dest fs n).1.sha256 = some (env.sha.digest f.bytes) := by
  obtain ⟨hdue, hok⟩ := List.mem_filter.mp hn
  obtain ⟨⟨f, hf⟩, -⟩ := mem_backlogPcaps.mp (List.mem_filter.mp hdue).1
  have hne : (⟨.backlog, n⟩ : Path) ≠ ⟨dest, n⟩ := Path.ne_of_dir hdest.symm
  unfold turnOut at hok ⊢
  rcases transferFile_ends env (inp.turn n).transfer hne hf with ⟨_, e, he⟩ | ⟨_, r, fs', he, hend⟩
  · rw [he] at hok; cases hok
  · rw [he] at hok ⊢
    obtain ⟨hsha, -, hgone, hthere⟩ := hend.success hne (fun b => h.sha n hdue f b hf) (h.move n hdue) hok
    exact ⟨hgone, f, hf, hthere, hsha⟩

/-- Any other file of the backlog stays, and so does what is at its name on the drive. -/
theorem turn_kept (h : Undisturbed env rotate inp dest fs) (hn : n ∈ backlogPcaps fs)
    (hnot : n ∉ delivered env rotate inp dest fs) :
    (turnFs env rotate inp dest fs n).read ⟨.backlog, n⟩ = fs.read ⟨.backlog, n⟩ ∧
      (turnFs env rotate inp dest fs n).read ⟨dest, n⟩ = fs.read ⟨dest, n⟩ := by
  unfold turnFs
  split
  · exact ⟨rfl, rfl⟩
  · next hact =>
    have hdue : n ∈ due rotate inp fs := by
      rw [due_eq h.getmtime]
      exact List.mem_filter.mpr ⟨hn, by simpa using hact⟩
    refine h.failed n hdue ?_
    cases hok : (turnOut env inp dest fs n).1.success with
    | true => exact absurd (List.mem_filter.mpr ⟨hdue, hok⟩) hnot
    | false => rfl

/-! ## All of them -/

theorem turnFs_of_delivered (h : Undisturbed env rotate inp dest fs)
    (hn : n ∈ delivered env rotate inp dest fs) :
    turnFs env rotate inp dest fs n = (turnOut env inp dest fs n).2 := by
  have hdue := (List.mem_filter.mp hn).1
  rw [due_eq h.getmtime] at hdue
  have hact := (List.mem_filter.mp hdue).2
  simp only [Bool.not_eq_true'] at hact
  simp only [turnFs, hact, Bool.false_eq_true, if_false]

theorem exportLoop_delivered (h : Undisturbed env rotate inp dest d.fs) (hdest : dest ≠ .backlog)
    (hloop : exportLoop env rotate inp dest (backlogPcaps d.fs) acc d = .ok acc' d')
    (hn : n ∈ delivered env rotate inp dest d.fs) :
    d'.fs.read ⟨.backlog, n⟩ = none ∧ ∃ f, d.fs.read ⟨.backlog, n⟩ = some f ∧
      d'.fs.contents ⟨dest, n⟩ = some f.bytes ∧
      (turnOut env inp dest d.fs n).1.sha256 = some (env.sha.digest f.bytes) := by
  obtain ⟨-, hown, -⟩ := exportLoop_ok (backlogPcaps_nodup d.fs) hloop
  have hlisted : n ∈ backlogPcaps d.fs := (List.mem_filter.mp (List.mem_filter.mp hn).1).1
  obtain ⟨hgone, f, hf, hthere, hsha⟩ := turn_delivered h hdest hn
  have hagree := hown n hlisted
  rw [turnFs_of_delivered h hn] at hagree
  refine ⟨(hagree _ (.inl rfl)).trans hgone, f, hf, ?_, hsha⟩
  rw [FS.contents, hagree _ (.inr rfl)]
  exact hthere

theorem exportLoop_others (h : Undisturbed env rotate inp dest d.fs)
    (hloop : exportLoop env rotate inp dest (backlogPcaps d.fs) acc d = .ok acc' d') {p : Path}
    (hp : p.dir = .backlog ∨ p.dir = dest → p.name ∉ delivered env rotate inp dest d.fs) :
    d'.fs.read p = d.fs.read p := by
  obtain ⟨hframe, hown, -⟩ := exportLoop_ok (backlogPcaps_nodup d.fs) hloop
  by_cases hturn : ∃ n ∈ backlogPcaps d.fs, turnPaths dest n p
  · obtain ⟨n, hn, hpath⟩ := hturn
    rw [hown n hn p hpath]
    rcases hpath with rfl | rfl
    · exact (turn_kept h hn (hp (.inl rfl))).1
    · exact (turn_kept h hn (hp (.inr rfl))).2
  · exact hframe p fun n hn hpath => hturn ⟨n, hn, hpath⟩

/-- The manifest's lines, already in the order it sorts them to. -/
theorem insertionSort_delivered (env : Env) (rotate : ℚ) (inp : BatchInput) (dest : Dir) (fs : FS)
    (g : Name → String) :
    ((delivered env rotate inp dest fs).map fun n => (n, g n)).insertionSort tupleLe =
      (delivered env rotate inp dest fs).map fun n => (n, g n) := by
  refine List.Pairwise.insertionSort_eq (List.pairwise_map.mpr ?_)
  exact ((due_ordered rotate inp fs).filter _).imp fun hlt => .inl hlt

theorem writeReceipts_manifest_written (drive : Drive) (hman : inp.manifest = .none) :
    (writeReceipts inp drive dest acc d).manifest = if acc.transferred = [] then d.manifest else
      Function.update d.manifest dest (some (manifestHeader inp.generated ++
        (acc.transferred.insertionSort tupleLe).map manifestLine)) := by
  rw [writeReceipts_manifest]
  simp only [writeManifest, writeText, hman]

theorem writeReceipts_log_written (drive : Drive) (hlog : inp.log = .none) :
    (writeReceipts inp drive dest acc d).transferLog =
      Function.update d.transferLog drive (d.transferLog drive ++ acc.entries) := by
  have happend : ∀ d : Disk, (if acc.entries = [] then d else
      appendTransferLog inp drive acc.entries d).transferLog =
        Function.update d.transferLog drive (d.transferLog drive ++ acc.entries) := by
    intro d
    split
    · next hnone => rw [hnone, List.append_nil, Function.update_eq_self]
    · simp only [appendTransferLog, hlog]
  unfold writeReceipts
  dsimp only
  rw [happend]
  split <;> rfl

theorem logResult_ok_iff (r : TransferResult) : logResult r = .ok ↔ r.success = true := by
  unfold logResult
  cases r.success with
  | true => simp
  | false =>
    simp only [Bool.false_eq_true, if_false, iff_false]
    split <;> simp

theorem entries_ok (env : Env) (rotate : ℚ) (inp : BatchInput) (dest : Dir) (fs : FS)
    (left : Name → Option File) :
    ((((due rotate inp fs).map fun n => logEntry inp dest n (turnOut env inp dest fs n).1
        (left n)).filter fun e => e.result = .ok).map (·.src)) =
      (delivered env rotate inp dest fs).map fun n => ⟨.backlog, n⟩ := by
  rw [List.filter_map, List.map_map, delivered]
  refine congrArg (List.map _) (List.filter_congr fun n _ => ?_)
  simp [logEntry, logResult_ok_iff]

/-- The hash each call returned is that of what is there after the loop. -/
theorem lines_digest (h : Undisturbed env rotate inp dest d.fs) (hdest : dest ≠ .backlog)
    (hloop : exportLoop env rotate inp dest (backlogPcaps d.fs) acc d = .ok acc' d') :
    ((delivered env rotate inp dest d.fs).map fun n =>
        (n, (turnOut env inp dest d.fs n).1.sha256.getD "")).map manifestLine =
      (delivered env rotate inp dest d.fs).map fun n =>
        digestAt env d'.fs ⟨dest, n⟩ ++ "  " ++ n := by
  rw [List.map_map]
  refine List.map_congr_left fun n hn => ?_
  obtain ⟨-, f, -, hthere, hsha⟩ := exportLoop_delivered h hdest hloop hn
  simp only [Function.comp_apply, manifestLine, digestAt, hthere, hsha, Option.map_some, Option.getD_some]

end

/-- **Exact specification of one `export_batch`.** Over any backlog, with any of
its transfers failing cleanly, a pass returns, and `Exported` is what it did. -/
theorem exportBatch_exported (env : Env) (rotate : ℚ) (inp : BatchInput) (drive : Drive) (d : Disk)
    (h : Undisturbed env rotate inp (.pcap drive inp.date) d.fs) :
    ∃ s f d', exportBatch env rotate inp drive d = .ok (s, f) d' ∧
      Exported env rotate inp drive d s f d' := by
  obtain ⟨counts, d', hbatch⟩ := exportBatch_returns env rotate drive h.glob h.stat d
  obtain ⟨acc, d₁, hloop, rfl, rfl⟩ := exportBatch_ok hbatch
  obtain ⟨hframe, hown, -, htransferred, hentries, hman, hlog⟩ :=
    exportLoop_ok (backlogPcaps_nodup d.fs) hloop
  obtain ⟨hs, hsf⟩ := exportLoop_counted hloop ⟨rfl, rfl⟩
  have hdest : (.pcap drive inp.date : Dir) ≠ .backlog := by simp
  rw [filterMap_turnReceipt env rotate _ _ h.getmtime] at htransferred
  rw [filterMap_turnEntry env rotate _ _ h.getmtime] at hentries
  refine ⟨acc.successCount, acc.failCount, _, hbatch, ?_⟩
  have hfiles := fun n hn => exportLoop_delivered (n := n) h hdest hloop hn
  constructor
  case total => rw [hsf, hentries]; simp
  case succeeded => rw [hs, htransferred]; simp
  case backlog =>
    intro n
    rw [writeReceipts_fs]
    split
    · next hn => exact (hfiles n hn).1
    · next hn => exact exportLoop_others h hloop fun _ => hn
  case arrived =>
    intro n hn
    obtain ⟨-, f, hf, hthere, -⟩ := hfiles n hn
    rw [writeReceipts_fs, hthere, FS.contents_of_read hf]
  case others =>
    intro p hback hname
    rw [writeReceipts_fs]
    refine exportLoop_others h hloop fun hdir => ?_
    rcases hdir with hb | hd
    · exact absurd hb hback
    · exact hname hd
  case ordered => exact due_ordered rotate inp d.fs
  case manifests =>
    intro dir hdir
    rw [writeReceipts_manifest_written drive h.manifest]
    split
    · rw [hman]
    · rw [Function.update_of_ne hdir, hman]
  case manifest =>
    have hzero : acc.successCount = 0 ↔ acc.transferred = [] := by rw [hs, List.length_eq_zero_iff]
    rw [writeReceipts_manifest_written drive h.manifest, writeReceipts_fs]
    simp only [hzero]
    split
    · rw [hman]
    · rw [Function.update_self, htransferred, List.nil_append, insertionSort_delivered,
        lines_digest h hdest hloop]
  case log =>
    refine ⟨acc.entries, ?_, ?_, ?_⟩
    · rw [writeReceipts_log_written drive h.log, Function.update_self, hlog]
    · rw [hentries, List.nil_append, List.map_map]
      rfl
    · rw [hentries, List.nil_append, entries_ok]
  case logs =>
    intro v hv
    rw [writeReceipts_log_written drive h.log, Function.update_of_ne hv, hlog]

/-- Two old files and an active one; the copy of the first is refused. -/
def benchBacklog : FS :=
  ((FS.empty.write ⟨.backlog, "a.pcap"⟩ ⟨[0x61], 0⟩).write ⟨.backlog, "b.pcap"⟩ ⟨[0x62], 10⟩).write
    ⟨.backlog, "c.pcap"⟩ ⟨[0x63], 95⟩

/-- A pass in which nothing fails. -/
def benchBatch : BatchInput where
  date := "20260101"
  turn := fun n =>
    { now := 100
      transfer := { copy2 := if n = "a.pcap" then .refused "[Errno 5] Input/output error" else .none } }

/-- One of the two goes to the drive, and the receipts say so. -/
theorem exportBatch_exported_mixed :
    ∃ s f d', exportBatch benchEnv 20 benchBatch "SEER_EXT" { fs := benchBacklog } = .ok (s, f) d' ∧
      Exported benchEnv 20 benchBatch "SEER_EXT" { fs := benchBacklog } s f d' ∧ s + f = 2 ∧
      d'.fs.contents ⟨.pcap "SEER_EXT" "20260101", "b.pcap"⟩ = some [0x62] ∧
      d'.manifest (.pcap "SEER_EXT" "20260101") = some ["# SEER PCAP Export Manifest", "# Generated: ",
        "# Format: sha256  filename", "",
        "3e23e8160039594a33894f6564e1b1348bbd7a0088d42c4acb73eeaed59c009d  b.pcap"] := by
  have hdue : due 20 benchBatch benchBacklog = ["a.pcap", "b.pcap"] := by decide +kernel
  have hdelivered : delivered benchEnv 20 benchBatch (.pcap "SEER_EXT" "20260101") benchBacklog =
      ["b.pcap"] := by decide +kernel
  have hquiet : Undisturbed benchEnv 20 benchBatch (.pcap "SEER_EXT" "20260101") benchBacklog := by
    refine ⟨rfl, fun _ => rfl, fun _ => rfl, rfl, rfl, fun n _ f b _ hc => ?_,
      fun n _ hrename => absurd rfl hrename, fun n hn hok => ?_⟩
    · unfold benchBatch at hc
      dsimp only at hc
      split at hc <;> cases hc
    · rw [hdue] at hn
      have hna : n = "a.pcap" := by
        by_contra hne
        have hb : n = "b.pcap" := by simpa [hne] using hn
        subst hb
        revert hok
        decide +kernel
      subst hna
      decide +kernel
  obtain ⟨s, f, d', hrun, hspec⟩ := exportBatch_exported benchEnv 20 benchBatch "SEER_EXT"
    { fs := benchBacklog } hquiet
  have hb : "b.pcap" ∈ delivered benchEnv 20 benchBatch (.pcap "SEER_EXT" "20260101") benchBacklog := by
    simp [hdelivered]
  have hthere : d'.fs.contents ⟨.pcap "SEER_EXT" "20260101", "b.pcap"⟩ = some [0x62] :=
    (hspec.arrived "b.pcap" hb).trans (by decide +kernel)
  have hone : s = 1 := hspec.succeeded.trans (congrArg List.length hdelivered)
  refine ⟨s, f, d', hrun, hspec, ?_, hthere, ?_⟩
  · rw [hspec.total, hdue]
    rfl
  · have hman := hspec.manifest
    rw [hone, if_neg (by decide), show benchBatch.date = "20260101" from rfl, hdelivered] at hman
    rw [hman, List.map_singleton, digestAt, hthere]
    rfl

end SeerSensor
