/-
`export_batch`: one pass over the backlog, by name, that hands every
file quiet for long enough to `transfer_file` and then leaves its receipts: the
directory's `MANIFEST.txt`, written anew, and the drive's `TRANSFER.LOG`, which
grows.

What the pass meets is in `BatchInput`: for each file the clock, the faults of
its transfer and whether the size can still be read, and for the two receipt
files how far their writes get. A pass raises only where a size is read.
-/
import Mathlib.Data.List.Infix
import Mathlib.Data.List.Sort
import Mathlib.Data.String.Basic
import SeerSensor.Transfer

namespace SeerSensor

open Raise

/-- `"result"` of a log line. -/
inductive LogResult where
  | ok
  | verifyFail
  | ioError
  deriving DecidableEq

/-- One line of `TRANSFER.LOG`. -/
structure LogEntry where
  ts : String
  hostname : String
  src : Path
  dst : Path
  size : Nat
  sha256 : Option String
  result : LogResult
  deriving DecidableEq

/-- A call of `transfer_file`, for the record of a run. -/
structure Call where
  src : Path
  dstDir : Dir
  success : Bool
  deriving DecidableEq

/-- The files, the receipts on the drives, and the calls made so far. -/
structure Disk where
  fs : FS
  manifest : Dir → Option (List String) := fun _ => none
  transferLog : Drive → List LogEntry := fun _ => []
  calls : List Call := []

/-- How far writing a text file gets. -/
inductive WriteFault where
  | none
  | refused (e : String)
  /-- `k` whole lines are there, and `j` characters of the next. -/
  | torn (k j : Nat) (e : String)
  deriving DecidableEq

/-- What one file of the backlog meets in a pass. -/
structure FileTurn where
  getmtime : Option String := none
  now : Time
  transfer : TransferFaults := {}
  ts : String := ""
  stat : Option String := none

/-- What a pass meets: of each file, and when it writes its receipts. -/
structure BatchInput where
  glob : Option String := none
  date : Date
  hostname : String := ""
  turn : Name → FileTurn
  generated : String := ""
  manifest : WriteFault := .none
  log : WriteFault := .none

/-- `*.pcap*`. -/
def globPcapAny (n : Name) : Bool := decide (".pcap".toList <:+: n.toList)

/-- `sorted(backlog.glob("*.pcap*"))`. -/
def backlogPcaps (fs : FS) : List Name := ((fs.names .backlog).filter globPcapAny).insertionSort (· ≤ ·)

/-- A file whose age cannot be told counts as active. -/
def isFileActive (rotate : ℚ) (getmtime : Option String) (now : Time) (p : Path) (fs : FS) : Bool :=
  match getmtime, fs.read p with
  | none, some f => decide (now - f.mtime < rotate * (3 / 2))
  | _, _ => true

/-- Opening with `"w"` drops what was there. -/
def writeText (fault : WriteFault) (lines : List String) (old : Option (List String)) :
    Option (List String) :=
  match fault with
  | .none => some lines
  | .refused _ => old
  | .torn k j _ => some (lines.take k ++ (lines[k]?.map (sliceTo j)).toList)

/-- The four lines before the entries. -/
def manifestHeader (generated : String) : List String :=
  ["# SEER PCAP Export Manifest", "# Generated: " ++ generated, "# Format: sha256  filename", ""]

/-- A line `sha256  filename`. -/
def manifestLine (entry : Name × String) : String := entry.2 ++ "  " ++ entry.1

/-- The order of Python's tuples. -/
def tupleLe (a b : Name × String) : Prop := a.1 < b.1 ∨ a.1 = b.1 ∧ a.2 ≤ b.2

instance : DecidableRel tupleLe := fun a b =>
    inferInstanceAs (Decidable (a.1 < b.1 ∨ a.1 = b.1 ∧ a.2 ≤ b.2))

/-- `write_manifest`, which reports its errors and goes on. -/
def writeManifest (inp : BatchInput) (directory : Dir) (filesWithHashes : List (Name × String))
    (d : Disk) : Disk :=
  let lines := manifestHeader inp.generated ++ (filesWithHashes.insertionSort tupleLe).map manifestLine
  { d with
    manifest := Function.update d.manifest directory
      (writeText inp.manifest lines (d.manifest directory)) }

/-- `append_transfer_log`, likewise. -/
def appendTransferLog (inp : BatchInput) (driveRoot : Drive) (entries : List LogEntry) (d : Disk) :
    Disk :=
  let written := match inp.log with
    | .none => entries
    | .refused _ => []
    | .torn k _ _ => entries.take k
  { d with transferLog := Function.update d.transferLog driveRoot (d.transferLog driveRoot ++ written) }

/-- The accumulators of the loop. -/
structure Batch where
  successCount : Nat := 0
  failCount : Nat := 0
  transferred : List (Name × String) := []
  entries : List LogEntry := []

/-- `"OK" if success else "VERIFY_FAIL" if "mismatch" in (error or "") else "IO_ERROR"`. -/
def logResult (r : TransferResult) : LogResult :=
  if r.success then .ok
  else if "mismatch".toList <:+: (r.error.getD "").toList then .verifyFail
  else .ioError

/-- The entry for a transfer, `here` being what is at the source afterwards. -/
def logEntry (inp : BatchInput) (dest : Dir) (n : Name) (r : TransferResult) (here : Option File) :
    LogEntry where
  ts := (inp.turn n).ts
  hostname := inp.hostname
  src := ⟨.backlog, n⟩
  dst := ⟨dest, n⟩
  size := (here.map (·.bytes.length)).getD 0
  sha256 := (r.sha256.filter (· ≠ "")).map (sliceTo 16)
  result := logResult r

/-- What a transfer adds. -/
def Batch.add (acc : Batch) (n : Name) (r : TransferResult) (entry : LogEntry) : Batch where
  successCount := if r.success then acc.successCount + 1 else acc.successCount
  failCount := if r.success then acc.failCount else acc.failCount + 1
  -- a verifying call that succeeded has a hash
  transferred := acc.transferred ++ if r.success then [(n, r.sha256.getD "")] else []
  entries := acc.entries ++ [entry]

/-- The body of the loop. -/
def exportTurn (env : Env) (rotate : ℚ) (inp : BatchInput) (dest : Dir) (acc : Batch) (n : Name) :
    Prog Disk Batch :=
  fun d =>
    let turn := inp.turn n
    if isFileActive rotate turn.getmtime turn.now ⟨.backlog, n⟩ d.fs then
      .ok acc d
    else
      let out := transferFile env turn.transfer ⟨.backlog, n⟩ dest true d.fs
      let d' : Disk := { d with
        fs := out.2
        calls := d.calls ++ [⟨⟨.backlog, n⟩, dest, out.1.success⟩] }
      match turn.stat, out.2.read ⟨.backlog, n⟩ with
      -- `pcap.stat()` after `pcap.exists()`
      | some e, some _ => .error e d'
      | _, here => .ok (acc.add n out.1 (logEntry inp dest n out.1 here)) d'

/-- `for pcap in pcaps`. -/
def exportLoop (env : Env) (rotate : ℚ) (inp : BatchInput) (dest : Dir) :
    List Name → Batch → Prog Disk Batch
  | [], acc => pure acc
  | n :: ns, acc => do
    let acc ← exportTurn env rotate inp dest acc n
    exportLoop env rotate inp dest ns acc

/-- `write_manifest` and `append_transfer_log`, each only with something to write. -/
def writeReceipts (inp : BatchInput) (driveRoot : Drive) (dest : Dir) (acc : Batch) (d : Disk) : Disk :=
  let d := if acc.transferred = [] then d else writeManifest inp dest acc.transferred d
  if acc.entries = [] then d else appendTransferLog inp driveRoot acc.entries d

/-- `export_batch`, to the volume mounted at `drive_root`. -/
def exportBatch (env : Env) (rotate : ℚ) (inp : BatchInput) (driveRoot : Drive) :
    Prog Disk (Nat × Nat) := do
  raiseIf inp.glob
  let d ← get
  let pcaps := backlogPcaps d.fs
  if pcaps = [] then
    pure (0, 0)
  else
    let dest : Dir := .pcap driveRoot inp.date
    let acc ← exportLoop env rotate inp dest pcaps {}
    modify (writeReceipts inp driveRoot dest acc)
    pure (acc.successCount, acc.failCount)

end SeerSensor
