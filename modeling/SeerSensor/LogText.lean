/-
`TRANSFER.LOG` as the file it is. Elsewhere the log of a drive is the list of
its entries; here it is the text that `append_transfer_log` writes, one
`json.dumps` a line, and what a reader of that text gets back.

The names in it may be anything: every character that could end a line or a text
is escaped, so an entry is one line. An append that stops inside a line is what
hurts. Its leftover has no newline, the next pass writes on behind it, and the
first entry of that pass goes with it: `TRANSFER.LOG` is not made whole first.
-/
import SeerSensor.Lib.JsonLine
import SeerSensor.Lib.LineLog
import SeerSensor.Lib.Runs
import SeerSensor.TransferLog

namespace SeerSensor.LogText

open Raise

/-- An entry as it is written: paths are texts. -/
structure LogLine where
  ts : String
  hostname : String
  src : String
  dst : String
  size : Nat
  sha256 : Option String
  result : LogResult
  deriving DecidableEq

/-- The `result` of an entry. -/
def resultText : LogResult → String
  | .ok => "OK"
  | .verifyFail => "VERIFY_FAIL"
  | .ioError => "IO_ERROR"

/-- The result that a text stands for. -/
def readResult : String → Option LogResult
  | "OK" => some .ok
  | "VERIFY_FAIL" => some .verifyFail
  | "IO_ERROR" => some .ioError
  | _ => none

/-- The `sha256` of an entry. -/
def shaValue : Option String → JsonLine.Value
  | none => .null
  | some s => .str s

/-- The `entry` of `export_batch`. -/
def LogLine.members (l : LogLine) : JsonLine.Members :=
  [("ts", .str l.ts), ("hostname", .str l.hostname), ("src", .str l.src), ("dst", .str l.dst),
    ("size", .nat l.size), ("sha256", shaValue l.sha256), ("result", .str (resultText l.result))]

/-- The text under a key. -/
def textOf (ms : JsonLine.Members) (key : String) : Option String :=
  match ms.lookup key with
  | some (.str s) => some s
  | _ => none

/-- The number under a key. -/
def natOf (ms : JsonLine.Members) (key : String) : Option Nat :=
  match ms.lookup key with
  | some (.nat n) => some n
  | _ => none

/-- The text or `null` under a key. -/
def shaOf (ms : JsonLine.Members) (key : String) : Option (Option String) :=
  match ms.lookup key with
  | some .null => some none
  | some (.str s) => some (some s)
  | _ => none

/-- An object that is an entry. -/
def LogLine.ofMembers (ms : JsonLine.Members) : Option LogLine := do
  let ts ← textOf ms "ts"
  let hostname ← textOf ms "hostname"
  let src ← textOf ms "src"
  let dst ← textOf ms "dst"
  let size ← natOf ms "size"
  let sha256 ← shaOf ms "sha256"
  let result ← (textOf ms "result").bind readResult
  pure ⟨ts, hostname, src, dst, size, sha256, result⟩

theorem ofMembers_members (l : LogLine) : LogLine.ofMembers l.members = some l := by
  obtain ⟨ts, hostname, src, dst, size, sha256, result⟩ := l
  cases sha256 <;> cases result <;> rfl

/-- `json.dumps(entry)`, and `json.loads` of a line. -/
def codec : LineLog.Codec LogLine where
  line l := JsonLine.dump l.members
  read text := (JsonLine.load text).bind LogLine.ofMembers
  newline l := JsonLine.newline_not_mem_dump l.members
  line_ne_nil l := List.cons_ne_nil _ _
  read_nil := rfl
  read_line l := by rw [JsonLine.load_dump, Option.bind_some, ofMembers_members]
  read_part l p hp hne := by rw [JsonLine.load_take hp hne, Option.bind_none]
  read_glued a b p t q hp hpne hq hqne := by
    have hkey : "ts".toList = 't' :: ['s'] := rfl
    rw [JsonLine.load_glued hkey rfl hp hpne t hq hqne, Option.bind_none]

/-- The directories of the paths of an entry, as texts: `str(Path(backlog_dir))`
and `os.path.join(drive_root, "pcap")`. -/
structure Layout where
  ring : String
  backlog : String
  pcap : String

/-- A file's path as a text. -/
def Layout.path (lay : Layout) (p : Path) : String :=
  match p.dir with
  | .ring => lay.ring ++ "/" ++ p.name
  | .backlog => lay.backlog ++ "/" ++ p.name
  | .pcap _ date => lay.pcap ++ "/" ++ date ++ "/" ++ p.name

/-- An entry with its paths as texts. -/
def Layout.line (lay : Layout) (e : LogEntry) : LogLine :=
  ⟨e.ts, e.hostname, lay.path e.src, lay.path e.dst, e.size, e.sha256, e.result⟩

/-- What `append_transfer_log` is asked to write, and how far it gets. -/
def appendOf (lay : Layout) (fault : WriteFault) (entries : List LogEntry) : LineLog.Append LogLine :=
  match fault with
  | .none => ⟨entries.map lay.line, entries.length, 0⟩
  | .refused _ => ⟨entries.map lay.line, 0, 0⟩
  | .torn k j _ => ⟨entries.map lay.line, k, j⟩

/-- The entries of a pass, when its loop comes to an end. -/
def passEntries (env : Env) (rotate : ℚ) (inp : BatchInput) (drive : Drive) (d : Disk) : List LogEntry :=
  if inp.glob = none then
    match exportLoop env rotate inp (.pcap drive inp.date) (backlogPcaps d.fs) {} d with
    | .ok acc _ => acc.entries
    | .error _ _ => []
  else []

/-- The disk, the text of the drive's log and the appends it is made of. -/
structure Book where
  disk : Disk
  text : List Char := []
  appends : List (LineLog.Append LogLine) := []

/-- A pass over whatever is in the backlog by then. -/
structure Pass where
  files : FS
  inp : BatchInput

/-- The text grows by what the pass writes of its entries. -/
def step (env : Env) (rotate : ℚ) (lay : Layout) (drive : Drive) (b : Book) (p : Pass) : Option Book :=
  let d : Disk := { b.disk with fs := p.files }
  let a := appendOf lay p.inp.log (passEntries env rotate p.inp drive d)
  some
    { disk := after (exportBatch env rotate p.inp drive) d
      text := b.text ++ a.text codec
      appends := b.appends ++ [a] }

section
variable {env : Env} {rotate : ℚ} {lay : Layout} {drive : Drive} {b b' : Book} {p : Pass}

theorem appendOf_kept (lay : Layout) (fault : WriteFault) (entries : List LogEntry) :
    (appendOf lay fault entries).kept = (fault.kept entries).map lay.line := by
  cases fault with
  | none => simp [appendOf, LineLog.Append.kept, WriteFault.kept]
  | refused e => simp [appendOf, LineLog.Append.kept, WriteFault.kept]
  | torn k j e => simp [appendOf, LineLog.Append.kept, WriteFault.kept, List.map_take]

theorem exportBatch_log (env : Env) (rotate : ℚ) (inp : BatchInput) (drive : Drive) (d : Disk) :
    (after (exportBatch env rotate inp drive) d).transferLog drive =
      d.transferLog drive ++ inp.log.kept (passEntries env rotate inp drive d) := by
  have hnil : inp.log.kept ([] : List LogEntry) = [] := List.subset_nil.mp (WriteFault.kept_subset _ _)
  cases hglob : inp.glob with
  | some e =>
    have hraise : exportBatch env rotate inp drive d = .error e d :=
      bind_of_error (raiseIf_error.mpr ⟨hglob, rfl⟩)
    rw [after_error hraise]
    simp [passEntries, hglob, hnil]
  | none =>
    cases h : exportBatch env rotate inp drive d with
    | ok counts d' =>
      obtain ⟨acc, d₁, hloop, rfl, -⟩ := exportBatch_ok h
      obtain ⟨-, -, -, -, -, -, hlog⟩ := exportLoop_ok (backlogPcaps_nodup d.fs) hloop
      rw [after_ok h, writeReceipts_log_kept, hlog]
      simp [passEntries, hglob, hloop]
    | error e d' =>
      have hraised := h
      rw [exportBatch_listed env rotate drive d hglob] at hraised
      split at hraised
      · cases hraised
      · rcases bind_error.mp hraised with hloop | ⟨acc, d₁, -, hrest⟩
        · rw [after_error h, exportLoop_error_log hloop]
          simp [passEntries, hglob, hloop, hnil]
        · rw [bind_of_ok (modify_apply _)] at hrest
          cases hrest

/-- The text is made of the appends, and so is the list of entries. -/
structure Inv (lay : Layout) (drive : Drive) (b : Book) : Prop where
  text : b.text = b.appends.flatMap (LineLog.Append.text codec)
  entries : b.appends.flatMap LineLog.Append.kept = (b.disk.transferLog drive).map lay.line

theorem step_inv (h : Inv lay drive b) (hstep : step env rotate lay drive b p = some b') :
    Inv lay drive b' := by
  cases hstep
  constructor
  · simp [h.text]
  · have hlog := exportBatch_log env rotate p.inp drive { b.disk with fs := p.files }
    rw [hlog, List.map_append, ← h.entries, ← appendOf_kept]
    simp

end

/-- The pass stops inside a line of the log. -/
def Pass.cutsLine (p : Pass) : Bool :=
  match p.inp.log with
  | .torn _ j _ => j != 0
  | _ => false

theorem appendOf_isCut (lay : Layout) (p : Pass) (entries : List LogEntry) :
    (appendOf lay p.inp.log entries).isCut = true → p.cutsLine = true := by
  cases hlog : p.inp.log <;> simp [appendOf, LineLog.Append.isCut, Pass.cutsLine, hlog]

theorem run_cuts {env : Env} {rotate : ℚ} {lay : Layout} {drive : Drive} {b b' : Book} {passes : List Pass}
    (hrun : Runs.run (step env rotate lay drive) b passes = some b') :
    b'.appends.countP LineLog.Append.isCut ≤
      b.appends.countP LineLog.Append.isCut + passes.countP Pass.cutsLine := by
  induction passes generalizing b with
  | nil =>
    cases hrun
    exact Nat.le_refl _
  | cons p passes ih =>
    obtain ⟨b₁, hstep, hrun⟩ := Runs.run_cons.mp hrun
    refine (ih hrun).trans ?_
    cases hstep
    have hone := appendOf_isCut lay p (passEntries env rotate p.inp drive { b.disk with fs := p.files })
    rw [List.countP_append, List.countP_singleton, List.countP_cons]
    split_ifs with hcut hpass
    · omega
    · exact absurd (hone hcut) hpass
    · omega
    · omega

/-- **What `TRANSFER.LOG` says.** Passes to a drive, over any backlogs, with any
names in them and with every append to the log stopping anywhere. What reads back
from the text of the log is something a pass had to write; a pass that stops
inside a line costs at most one of the entries that were written in full; and
when none does, all of them read back, in order. -/
theorem transfer_log_reads_back (env : Env) (rotate : ℚ) (lay : Layout) (drive : Drive) (b : Book)
    (htext : b.text = []) (happends : b.appends = []) (hlog : b.disk.transferLog drive = [])
    (passes : List Pass) (b' : Book)
    (hrun : Runs.run (step env rotate lay drive) b passes = some b') :
    LineLog.readLog codec b'.text ⊆ b'.appends.flatMap LineLog.Append.entries ∧
      (b'.disk.transferLog drive).length ≤
        (LineLog.readLog codec b'.text).length + passes.countP Pass.cutsLine ∧
      (passes.countP Pass.cutsLine = 0 →
        LineLog.readLog codec b'.text = (b'.disk.transferLog drive).map lay.line) := by
  have hstart : Inv lay drive b := ⟨by rw [htext, happends]; rfl, by rw [happends, hlog]; rfl⟩
  have hinv : Inv lay drive b' := Runs.invariant (fun _ _ _ h hs => step_inv h hs) hstart hrun
  have hcuts : b'.appends.countP LineLog.Append.isCut ≤ passes.countP Pass.cutsLine := by
    simpa [happends] using run_cuts hrun
  rw [hinv.text, LineLog.readLog_appends]
  refine ⟨LineLog.foldl_append_subset codec _, ?_, fun hnone => ?_⟩
  · have hlost := LineLog.foldl_append_lost codec b'.appends
    rw [hinv.entries, List.length_map] at hlost
    omega
  · have huncut : ∀ a ∈ b'.appends, a.isCut = false := by
      have hzero := List.countP_eq_zero.mp (Nat.le_zero.mp (hnone ▸ hcuts))
      exact fun a ha => Bool.eq_false_iff.mpr (hzero a ha)
    rw [LineLog.foldl_append_uncut huncut, ← hinv.entries]
    exact List.append_nil _

/-- The first pass gets three characters of its entry written; the second, which
exports two files, loses the entry of the first of them. -/
def benchPasses : List Pass :=
  [{ files := FS.empty.write ⟨.backlog, "a.pcap"⟩ ⟨[0x61], 0⟩
     inp := { date := "20260101", turn := fun _ => { now := 100 }, log := .torn 0 3 "[Errno 28]" } },
   { files := (FS.empty.write ⟨.backlog, "b.pcap"⟩ ⟨[0x62], 0⟩).write ⟨.backlog, "c\n.pcap"⟩ ⟨[0x61], 0⟩
     inp := { date := "20260102", turn := fun _ => { now := 200 } } }]

def benchLayout : Layout := ⟨"/var/seer/pcap_ring", "/opt/seer/var/backlog", "/mnt/SEER_EXT/pcap"⟩

theorem transfer_log_reads_back_torn :
    ∃ b', Runs.run (step benchEnv 20 benchLayout "SEER_EXT") { disk := { fs := .empty } } benchPasses =
        some b' ∧
      (b'.disk.transferLog "SEER_EXT").map (·.src.name) = ["b.pcap", "c\n.pcap"] ∧
      1 ≤ (LineLog.readLog codec b'.text).length := by
  have hran : (Runs.run (step benchEnv 20 benchLayout "SEER_EXT") { disk := { fs := .empty } }
      benchPasses).map (fun b => (b.disk.transferLog "SEER_EXT").map (·.src.name)) =
      some ["b.pcap", "c\n.pcap"] := by
    decide +kernel
  obtain ⟨b', hrun, hnames⟩ := Option.map_eq_some_iff.mp hran
  obtain ⟨-, hlost, -⟩ := transfer_log_reads_back benchEnv 20 benchLayout "SEER_EXT"
    { disk := { fs := .empty } } rfl rfl rfl benchPasses b' hrun
  have hlength := congrArg List.length hnames
  have hcuts : benchPasses.countP Pass.cutsLine = 1 := rfl
  rw [List.length_map] at hlength
  refine ⟨b', hrun, hnames, ?_⟩
  simp only [List.length_cons, List.length_nil] at hlength
  omega

/-- And that one is all that is left. -/
example : (Runs.run (step benchEnv 20 benchLayout "SEER_EXT") { disk := { fs := .empty } }
    benchPasses).map (fun b => (LineLog.readLog codec b.text).map (·.src)) =
    some ["/opt/seer/var/backlog/c\n.pcap"] := by
  decide +kernel

end SeerSensor.LogText
