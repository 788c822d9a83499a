/-
`move_oldest.py`: when the ring holds enough files, move the oldest closed
one to the export drive, or to the backlog when there is none.

A run of `main` counts the ring, then lists it again to pick; capture may have
written more in between (`MoverRun.between`). The clock is read once. Every
way through `main` that does not raise logs one line, which is what the
function returns here.
-/
import Mathlib.Data.List.Sort
import SeerSensor.Mounts

namespace SeerSensor.MoveOldest

open Raise

/-- The mover's settings, with the defaults. -/
structure Config where
  thresh : Nat
  backlogDir : String := "/opt/seer/var/backlog"
  mountCandidates : List String := ["/mnt/seer_external", "/mnt/SEER_EXT", "/media/seer_external"]
  minFreePct : ℚ := 2

/-- `QUIET_SECS`. -/
def quietSecs : ℚ := 3

/-- Quiet for `QUIET_SECS`. -/
def closed (now : Time) (f : File) : Bool := decide (now - f.mtime ≥ quietSecs)

/-- `*.pcap`. -/
def globPcap (n : Name) : Bool := ".pcap".toList.isSuffixOf n.toList

/-- The ring's `*.pcap` files with what `stat` says of each. -/
def ringPcaps (fs : FS) : List (Name × File) :=
  ((fs.names .ring).filter globPcap).filterMap fun n => (fs.read ⟨.ring, n⟩).map fun f => (n, f)

/-- In the order of modification times. -/
def byMtime (a b : Name × File) : Prop := a.2.mtime ≤ b.2.mtime

instance : DecidableRel byMtime := fun a b => inferInstanceAs (Decidable (a.2.mtime ≤ b.2.mtime))

/-- `pick_oldest_closed`. -/
def pickOldestClosed (now : Time) (fs : FS) : Option Name :=
  (((ringPcaps fs).insertionSort byMtime).find? fun p => closed now p.2).map (·.1)

/-- What capture writes to the ring, in order. -/
def captureAll (fs : FS) (writes : List (Name × File)) : FS :=
  writes.foldl (fun fs w => fs.write ⟨.ring, w.1⟩ w.2) fs

/-- What one run of `main` meets. -/
structure MoverRun where
  between : List (Name × File) := []
  now : Time
  mounts : Mounts
  date : Date
  mkdir : Option String := none
  move : MoveFaults := {}

/-- The `try` at the end of `main`. -/
def moveTo (env : Env) (fl : MoveFaults) (target : Name) (dest : Dir) (route destPath : String) :
    Prog FS String :=
  fun fs =>
    match shutilMove env fl ⟨.ring, target⟩ ⟨dest, target⟩ fs with
    | .ok _ fs' => .ok ("[moved] " ++ target ++ " -> " ++ route ++ " (" ++ destPath ++ ")") fs'
    | .error e fs' => .ok ("[error] move " ++ target ++ " -> " ++ route ++ ": " ++ e) fs'

/-- `main` from the second listing on. -/
def pickAndMove (cfg : Config) (env : Env) (r : MoverRun) : Prog FS String := do
  let fs ← get
  match pickOldestClosed r.now fs with
  | none => pure "[noop] no closed file to move"
  | some target =>
    match detectExportDrive r.mounts cfg.minFreePct r.date cfg.mountCandidates with
    | some (mount, dest) => do
      -- `drive_dest.mkdir` stands outside the `try`
      raiseIf r.mkdir
      moveTo env r.move target dest ("export(" ++ mount ++ ")")
        (mount ++ "/pcap/" ++ r.date ++ "/" ++ target)
    | none => moveTo env r.move target .backlog "backlog" (cfg.backlogDir ++ "/" ++ target)

/-- `main`, with the line it logs as its result. -/
def main (cfg : Config) (env : Env) (r : MoverRun) : Prog FS String := do
  let fs ← get
  let count := (ringPcaps fs).length
  if count < cfg.thresh then
    pure ("[noop] ring has " ++ toString count ++ " files (< threshold " ++ toString cfg.thresh ++ ")")
  else
    modify fun fs => captureAll fs r.between
    pickAndMove cfg env r

/-- Where a run sends its target. -/
def destDir (cfg : Config) (r : MoverRun) : Dir :=
  match detectExportDrive r.mounts cfg.minFreePct r.date cfg.mountCandidates with
  | some (_, dest) => dest
  | none => .backlog

end SeerSensor.MoveOldest
