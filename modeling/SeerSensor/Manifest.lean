/-
A day's manifest. `write_manifest` opens `MANIFEST.txt` anew and writes the
files of its own batch, where the requirements have the entry appended or
merged, so the second batch of a day drops the lines of the first.

`Listed` is what the file is for. A pass keeps it when it lets nothing succeed
and does not reach the files already exported, or when it exports every one of
them again and its write completes (`Covers`); nothing else about the passes
matters.
-/
import SeerSensor.ExportBatchFacts
import SeerSensor.Lib.Runs

namespace SeerSensor.Manifest

open Raise

/-- The backlog as other programs leave it: files written or removed. -/
def editBacklog (fs : FS) (edits : List (Name × Option File)) : FS :=
  edits.foldl (fun fs e => match e.2 with
    | some f => fs.write ⟨.backlog, e.1⟩ f
    | none => fs.remove ⟨.backlog, e.1⟩) fs

/-- One call of `export_batch` and what happened to the backlog before it. -/
structure BatchCall where
  edits : List (Name × Option File)
  inp : BatchInput

/-- The disk as the call finds it. -/
def found (d : Disk) (c : BatchCall) : Disk := { d with fs := editBacklog d.fs c.edits }

/-- A call on the day `date`; what it raises ends it. -/
def step (env : Env) (rotate : ℚ) (drive : Drive) (date : Date) (d : Disk) (c : BatchCall) :
    Option Disk :=
  if c.inp.date = date then some (after (exportBatch env rotate c.inp drive) (found d c)) else none

/-- Every file exported to `dest` has a line with the hash of what is there now. -/
def Listed (env : Env) (dest : Dir) (d : Disk) : Prop :=
  ∀ c ∈ d.calls, c.dstDir = dest → c.success = true →
    ∃ f lines, d.fs.read ⟨dest, c.src.name⟩ = some f ∧ d.manifest dest = some lines ∧
      manifestLine (c.src.name, env.sha.digest f.bytes) ∈ lines

/-- The names exported to `dest` so far. -/
def exported (dest : Dir) (d : Disk) : List Name :=
  (d.calls.filter fun c => c.dstDir = dest && c.success).map (·.src.name)

/-- The pass tries the file. -/
def tries (rotate : ℚ) (d : Disk) (c : BatchCall) (n : Name) : Prop :=
  n ∈ backlogPcaps (found d c).fs ∧ turnActive rotate c.inp (found d c).fs n = false

/-- The schedule lets the file's transfer succeed. -/
def passes (env : Env) (dest : Dir) (d : Disk) (c : BatchCall) (n : Name) : Prop :=
  ∃ f, (found d c).fs.read ⟨.backlog, n⟩ = some f ∧
    (c.inp.turn n).transfer.succeeds env.sha (env.sameDev ⟨.backlog, n⟩ dest) f.bytes

/-- The schedule stops the file's transfer before it opens the destination. -/
def stops (env : Env) (dest : Dir) (c : BatchCall) (n : Name) : Prop :=
  (c.inp.turn n).transfer.stopsEarly (env.sameDev ⟨.backlog, n⟩ dest)

/-- The listing raises and nothing is done. Or no size is refused, and the pass
lets nothing succeed and does not reach a file that was exported before, or it
exports each of those again and writes its manifest to the end. -/
def Covers (env : Env) (rotate : ℚ) (dest : Dir) (d : Disk) (c : BatchCall) : Prop :=
  c.inp.glob ≠ none ∨ (∀ n, (c.inp.turn n).stat = none) ∧
    ((∀ n, tries rotate d c n → ¬ passes env dest d c n ∧ (n ∈ exported dest d → stops env dest c n)) ∨
      (c.inp.manifest = .none ∧ ∀ n ∈ exported dest d, tries rotate d c n ∧ passes env dest d c n))

section
variable {env : Env} {rotate : ℚ} {drive : Drive} {date : Date} {dest : Dir} {d d' : Disk}
  {c : BatchCall} {n : Name}

theorem mem_exported : n ∈ exported dest d ↔ ∃ c ∈ d.calls, c.dstDir = dest ∧ c.success = true ∧
    c.src.name = n := by
  simp [exported, and_assoc]

theorem editBacklog_read {fs : FS} {edits : List (Name × Option File)} {p : Path}
    (hp : p.dir ≠ .backlog) :
    (editBacklog fs edits).read p = fs.read p := by
  have hne : ∀ n : Name, p ≠ ⟨.backlog, n⟩ := fun n he => hp (by rw [he])
  unfold editBacklog
  induction edits generalizing fs with
  | nil => rfl
  | cons e edits ih =>
    rw [List.foldl_cons, ih]
    cases e.2 with
    | some f => exact FS.read_write_ne (hne _)
    | none => exact FS.read_remove_ne (hne _)

/-- A file that is tried and passes gets a receipt with the hash of what its
turn leaves at the destination. -/
theorem receipt_of_passes (hdest : dest ≠ .backlog) (htries : tries rotate d c n)
    (hpass : passes env dest d c n) :
    ∃ f, (turnFs env rotate c.inp dest (found d c).fs n).read ⟨dest, n⟩ = some f ∧
      turnReceipt env rotate c.inp dest (found d c).fs n = some (n, env.sha.digest f.bytes) := by
  obtain ⟨g, hg, hsucc⟩ := hpass
  have hne : (⟨.backlog, n⟩ : Path) ≠ ⟨dest, n⟩ := Path.ne_of_dir hdest.symm
  have hok := (transferFile_success_iff env (c.inp.turn n).transfer hne hg).mpr hsucc
  obtain ⟨f, hf, hsha⟩ := transferFile_receipt hne hok
  refine ⟨f, ?_, ?_⟩
  · simp only [turnFs, htries.2, Bool.false_eq_true, if_false]
    exact hf
  · have hok' : (turnOut env c.inp dest (found d c).fs n).1.success = true := hok
    have hsha' : (turnOut env c.inp dest (found d c).fs n).1.sha256 =
        some (env.sha.digest f.bytes) := hsha
    simp only [turnReceipt, htries.2, Bool.false_eq_true, if_false, hok', if_true, hsha',
      Option.getD_some]

theorem call_of_mem {call : Call} (hdest : dest ≠ .backlog)
    (h : call ∈ (backlogPcaps (found d c).fs).filterMap (turnCall env rotate c.inp dest (found d c).fs))
    (hs : call.success = true) : tries rotate d c call.src.name ∧
      passes env dest d c call.src.name := by
  obtain ⟨n, hn, hcall⟩ := List.mem_filterMap.mp h
  unfold turnCall at hcall
  split at hcall
  · cases hcall
  next hact =>
    cases hcall
    obtain ⟨⟨f, hf⟩, -⟩ := mem_backlogPcaps.mp hn
    have hne : (⟨.backlog, n⟩ : Path) ≠ ⟨dest, n⟩ := Path.ne_of_dir hdest.symm
    exact ⟨⟨hn, by simpa using hact⟩, f, hf, (transferFile_success_iff env _ hne hf).mp hs⟩

/-- A pass that returned, seen from `dest`: the files of its turns, its calls,
and the manifest written from their receipts. -/
theorem pass_eq (env : Env) (rotate : ℚ) (d : Disk) (hglob : c.inp.glob = none)
    (hstat : ∀ n, (c.inp.turn n).stat = none) (hdest : dest = .pcap drive c.inp.date) :
    ∃ acc d₁, after (exportBatch env rotate c.inp drive) (found d c) =
        writeReceipts c.inp drive dest acc d₁ ∧
      (∀ n, n ∉ backlogPcaps (found d c).fs → d₁.fs.read ⟨dest, n⟩ = (found d c).fs.read ⟨dest, n⟩) ∧
      (∀ n ∈ backlogPcaps (found d c).fs,
        d₁.fs.read ⟨dest, n⟩ = (turnFs env rotate c.inp dest (found d c).fs n).read ⟨dest, n⟩) ∧
      d₁.calls = d.calls ++ (backlogPcaps (found d c).fs).filterMap
        (turnCall env rotate c.inp dest (found d c).fs) ∧
      acc.transferred = (backlogPcaps (found d c).fs).filterMap
        (turnReceipt env rotate c.inp dest (found d c).fs) ∧
      d₁.manifest = d.manifest := by
  obtain ⟨counts, d', hok⟩ := exportBatch_returns env rotate drive hglob hstat (found d c)
  rw [after_ok hok]
  obtain ⟨acc, d₁, hloop, rfl, -⟩ := exportBatch_ok hok
  obtain ⟨hframe, hown, hcalls, htransferred, -, hman, -⟩ := exportLoop_ok (backlogPcaps_nodup _) hloop
  subst hdest
  refine ⟨acc, d₁, rfl, fun n hn => hframe _ fun m hm hp => hn ?_,
    fun n hn => hown n hn _ (.inr rfl), hcalls, ?_, hman⟩
  · have hname : n = m := turnPaths_name hp
    rw [hname]
    exact hm
  · rw [htransferred]
    rfl

theorem Listed.idle (hs : Listed env dest d) (hglob : c.inp.glob = none)
    (hstat : ∀ n, (c.inp.turn n).stat = none) (hdest : dest = .pcap drive c.inp.date)
    (hidle : ∀ n, tries rotate d c n → ¬ passes env dest d c n ∧
      (n ∈ exported dest d → stops env dest c n)) :
    Listed env dest (after (exportBatch env rotate c.inp drive) (found d c)) := by
  obtain ⟨acc, d₁, h, hout, hin, hcalls, htransferred, hman⟩ := pass_eq env rotate d hglob hstat hdest
  have hback : dest ≠ .backlog := by rw [hdest]; exact Dir.noConfusion
  have hnothing : acc.transferred = [] := by
    rw [htransferred, List.filterMap_eq_nil_iff]
    intro n hn
    obtain ⟨⟨f, hf⟩, -⟩ := mem_backlogPcaps.mp hn
    unfold turnReceipt
    split
    · rfl
    next hact =>
      have hfail : ¬ (turnOut env c.inp dest (found d c).fs n).1.success = true := fun hok =>
        (hidle n ⟨hn, by simpa using hact⟩).1 ⟨f, hf,
          (transferFile_success_iff env _ (Path.ne_of_dir hback.symm) hf).mp hok⟩
      rw [if_neg hfail]
  rw [h]
  intro call hcall hdir hsucc
  rw [writeReceipts_calls, hcalls, List.mem_append] at hcall
  rcases hcall with hold | hnew
  · obtain ⟨f, lines, hf, hlines, hline⟩ := hs call hold hdir hsucc
    refine ⟨f, lines, ?_, ?_, hline⟩
    · have hread : (found d c).fs.read ⟨dest, call.src.name⟩ = some f := by
        rw [← hf]
        exact editBacklog_read (by rw [hdest]; simp)
      rw [writeReceipts_fs, ← hread]
      by_cases hn : call.src.name ∈ backlogPcaps (found d c).fs
      · rw [hin _ hn]
        by_cases hact : turnActive rotate c.inp (found d c).fs call.src.name = true
        · rw [turnFs, if_pos hact]
        · have htries : tries rotate d c call.src.name := ⟨hn, by simpa using hact⟩
          rw [turnFs_stops hback ((hidle _ htries).2 (mem_exported.mpr ⟨call, hold, hdir, hsucc, rfl⟩))]
      · exact hout _ hn
    · rw [writeReceipts_manifest, if_pos hnothing, hman]
      exact hlines
  · obtain ⟨htries, hpass⟩ := call_of_mem hback hnew hsucc
    exact absurd hpass (hidle _ htries).1

theorem Listed.rewritten (hglob : c.inp.glob = none) (hstat : ∀ n, (c.inp.turn n).stat = none)
    (hdest : dest = .pcap drive c.inp.date) (hwrite : c.inp.manifest = .none)
    (hagain : ∀ n ∈ exported dest d, tries rotate d c n ∧ passes env dest d c n) :
    Listed env dest (after (exportBatch env rotate c.inp drive) (found d c)) := by
  have hback : dest ≠ .backlog := by rw [hdest]; simp
  obtain ⟨acc, d₁, h, -, hin, hcalls, htransferred, -⟩ := pass_eq env rotate d hglob hstat hdest
  rw [h]
  intro call hcall hdir hsucc
  rw [writeReceipts_calls, hcalls, List.mem_append] at hcall
  obtain ⟨htries, hpass⟩ : tries rotate d c call.src.name ∧ passes env dest d c call.src.name := by
    rcases hcall with hold | hnew
    · exact hagain _ (mem_exported.mpr ⟨call, hold, hdir, hsucc, rfl⟩)
    · exact call_of_mem hback hnew hsucc
  obtain ⟨f, hf, hreceipt⟩ := receipt_of_passes hback htries hpass
  have hmem : (call.src.name, env.sha.digest f.bytes) ∈ acc.transferred := by
    rw [htransferred]
    exact List.mem_filterMap.mpr ⟨_, htries.1, hreceipt⟩
  refine ⟨f, manifestHeader c.inp.generated ++ (acc.transferred.insertionSort tupleLe).map
    manifestLine, ?_, ?_, ?_⟩
  · rw [writeReceipts_fs, hin _ htries.1]
    exact hf
  · rw [writeReceipts_manifest, if_neg (List.ne_nil_of_mem hmem)]
    simp [writeManifest, hwrite, writeText]
  · rw [List.mem_append]
    exact .inr (List.mem_map.mpr ⟨_, (List.mem_insertionSort _).mpr hmem, rfl⟩)

theorem step_listed (hs : Listed env (.pcap drive date) d)
    (hc : Covers env rotate (.pcap drive date) d c)
    (h : step env rotate drive date d c = some d') : Listed env (.pcap drive date) d' := by
  unfold step at h
  split at h
  swap
  · cases h
  next hdate =>
    subst hdate
    cases h
    cases hglob : c.inp.glob with
    | some e =>
      have hraise : exportBatch env rotate c.inp drive (found d c) = .error e (found d c) :=
        bind_of_error (raiseIf_error.mpr ⟨hglob, rfl⟩)
      rw [after_error hraise]
      intro call hcall hdir hsucc
      obtain ⟨f, lines, hf, hlines, hline⟩ := hs call hcall hdir hsucc
      refine ⟨f, lines, ?_, hlines, hline⟩
      rw [← hf]
      exact editBacklog_read (by simp)
    | none =>
      rcases hc with hraise | ⟨hstat, hidle | ⟨hwrite, hagain⟩⟩
      · exact absurd hglob hraise
      · exact hs.idle hglob hstat rfl hidle
      · exact Listed.rewritten hglob hstat rfl hwrite hagain

end

/-- **When the manifest accumulates.** In every sequence of passes to one drive
on one day whose passes all cover what was exported there before, every file
exported so far has a line with the hash of what is now there, after each
pass. -/
theorem manifest_accumulates (env : Env) (rotate : ℚ) (drive : Drive) (date : Date) (d : Disk)
    (hnew : d.calls = []) (passes : List BatchCall)
    (hcovers : Runs.Meets (step env rotate drive date) (Covers env rotate (.pcap drive date))
      d passes) :
    Runs.Always (step env rotate drive date) (Listed env (.pcap drive date)) d passes := by
  refine Runs.always_of_meets (fun d c d' hd hc h => step_listed hd hc h) ?_ hcovers
  intro call hcall
  rw [hnew] at hcall
  cases hcall

/-- A pass at time 100 on the first of January, nothing failing, after `edits`. -/
def benchPass (edits : List (Name × Option File)) : BatchCall where
  edits := edits
  inp := { date := "20260101", turn := fun _ => { now := 100 } }

/-- One file, and later that day a pass with nothing to export. -/
theorem manifest_accumulates_once :
    Runs.Always (step benchEnv 20 "SEER_EXT" "20260101") (Listed benchEnv (.pcap "SEER_EXT" "20260101"))
      { fs := .empty } [benchPass [("a.pcap", some ⟨[0x61], 0⟩)], benchPass []] := by
  refine manifest_accumulates benchEnv 20 "SEER_EXT" "20260101" { fs := .empty } rfl _ fun d₁ h₁ => ?_
  obtain rfl := Option.some.inj h₁
  refine ⟨.inr ⟨fun _ => rfl, .inr ⟨rfl, fun n hn => nomatch hn⟩⟩,
    fun d₂ _ => ⟨.inr ⟨fun _ => rfl, .inl fun n hn => ?_⟩, trivial⟩⟩
  -- the first pass emptied the backlog
  have hnone : backlogPcaps (found
      (after (exportBatch benchEnv 20 (benchPass [("a.pcap", some ⟨[0x61], 0⟩)]).inp "SEER_EXT")
        (found { fs := .empty } (benchPass [("a.pcap", some ⟨[0x61], 0⟩)]))) (benchPass [])).fs =
      [] := by decide +kernel
  have hmem := hn.1
  rw [hnone] at hmem
  cases hmem

/-- Two passes on one day, a file each, nothing failing: the first file's line
is gone after the second pass. -/
theorem manifest_drops_earlier_pass :
    ¬ Runs.Always (step benchEnv 20 "SEER_EXT" "20260101")
      (Listed benchEnv (.pcap "SEER_EXT" "20260101"))
      { fs := .empty } [benchPass [("a.pcap", some ⟨[0x61], 0⟩)],
        benchPass [("b.pcap", some ⟨[0x62], 0⟩)]] := by
  intro h
  have hlisted := (h.2 _ rfl).2 _ rfl
  obtain ⟨f, lines, hf, hlines, hline⟩ :=
    hlisted ⟨⟨.backlog, "a.pcap"⟩, .pcap "SEER_EXT" "20260101", true⟩ (by decide +kernel) rfl rfl
  have hlines' : some lines = some (manifestHeader "" ++ [manifestLine ("b.pcap", benchHex [0x62])]) :=
    hlines.symm.trans (by decide +kernel)
  have hf' : some f = some ⟨[0x61], 0⟩ := hf.symm.trans (by decide +kernel)
  obtain rfl := Option.some.inj hlines'
  obtain rfl := Option.some.inj hf'
  revert hline
  decide +kernel

end SeerSensor.Manifest
