/-
`mover.log`: `move_oldest.main` with the writes of its log, each of which may
raise.

A run logs one line and that is mostly the truth. But the `[moved]` line is
written inside the `try`: if the log cannot be written, a move that has succeeded is
taken for one that failed, and the handler says `[error] move` of a file that is at
its destination. And a line that breaks off on a full disk has no newline: the next
one continues it, and neither of the two can be told. So a file that left the ring may
lack its line; a line that is intact is never without its file.
-/
import Mathlib.Algebra.Order.Ring.Nat
import SeerSensor.Lib.LineLog
import SeerSensor.Lib.Runs
import SeerSensor.MoveOldestFacts

namespace SeerSensor.MoverLog

open MoveOldest Raise

/-- The messages of `log`. -/
inductive Msg where
  | few (count thresh : Nat)
  | nothing
  | moved (target : Name) (route destPath : String)
  | failed (target : Name) (route e : String)
  deriving DecidableEq

def Msg.text : Msg → String
  | .few count thresh =>
    "[noop] ring has " ++ toString count ++ " files (< threshold " ++ toString thresh ++ ")"
  | .nothing => "[noop] no closed file to move"
  | .moved target route destPath => "[moved] " ++ target ++ " -> " ++ route ++ " (" ++ destPath ++ ")"
  | .failed target route e => "[error] move " ++ target ++ " -> " ++ route ++ ": " ++ e

/-- A line of the log with its time stamp. -/
structure Entry where
  ts : String
  msg : Msg
  deriving DecidableEq

/-- A line of the log, without its newline. -/
def Entry.line (e : Entry) : List Char := (e.ts ++ " " ++ e.msg.text).toList

/-- The files, and what each call of `log` has left in `mover.log`. -/
structure Host where
  fs : FS
  log : List (LineLog.Piece Entry) := []

/-- The text of `mover.log`. -/
def Host.text (h : Host) : List Char := h.log.flatMap (LineLog.Piece.text Entry.line)

/-- How a call of `log` ends: with its line, raising without it, raising with the line
there, or raising with a beginning of it there. -/
inductive LogFault where
  | none
  | lost (e : String)
  | late (e : String)
  | torn (cut : Nat) (e : String)
  deriving DecidableEq

/-- `log`: it opens the file, writes one line and closes it. -/
def log (fault : LogFault) (ts : String) (m : Msg) : Prog Host Unit := fun h =>
  match fault with
  | .none => .ok () { h with log := h.log ++ [.whole ⟨ts, m⟩] }
  | .lost e => .error e h
  | .late e => .error e { h with log := h.log ++ [.whole ⟨ts, m⟩] }
  | .torn cut e => .error e { h with log := h.log ++ [.part ⟨ts, m⟩ cut] }

/-- A run makes one call of `log`, or two, each at its time. -/
structure LoggedRun extends MoverRun where
  first : LogFault := .none
  firstTs : String := ""
  second : LogFault := .none
  secondTs : String := ""

/-- The `try` at the end of `main`. -/
def tryMove (env : Env) (r : LoggedRun) (target : Name) (dest : Dir) (route destPath : String) :
    Prog Host Unit :=
  fun h =>
    match shutilMove env r.move ⟨.ring, target⟩ ⟨dest, target⟩ h.fs with
    | .ok _ fs' =>
      match log r.first r.firstTs (.moved target route destPath) { h with fs := fs' } with
      | .ok u h' => .ok u h'
      -- the handler does not know that it was the log that raised
      | .error e h' => log r.second r.secondTs (.failed target route e) h'
    | .error e fs' => log r.first r.firstTs (.failed target route e) { h with fs := fs' }

/-- `main` from the second listing on. -/
def pickAndMove (cfg : Config) (env : Env) (r : LoggedRun) : Prog Host Unit := do
  let h ← get
  match pickOldestClosed r.now h.fs with
  | none => log r.first r.firstTs .nothing
  | some target =>
    match detectExportDrive r.mounts cfg.minFreePct r.date cfg.mountCandidates with
    | some (mount, dest) => do
      raiseIf r.mkdir
      tryMove env r target dest ("export(" ++ mount ++ ")") (mount ++ "/pcap/" ++ r.date ++ "/" ++ target)
    | none => tryMove env r target .backlog "backlog" (cfg.backlogDir ++ "/" ++ target)

/-- `main`, with its log. -/
def main (cfg : Config) (env : Env) (r : LoggedRun) : Prog Host Unit := do
  let h ← get
  let count := (ringPcaps h.fs).length
  if count < cfg.thresh then
    log r.first r.firstTs (.few count cfg.thresh)
  else
    modify fun h => { h with fs := captureAll h.fs r.between }
    pickAndMove cfg env r

/-! ## The same moves -/

section
variable {cfg : Config} {env : Env} {r : LoggedRun} {h : Host} {target : Name} {dest : Dir}
  {route destPath : String}

@[simp] theorem after_log_fs (fault : LogFault) (ts : String) (m : Msg) (h : Host) :
    (after (log fault ts m) h).fs = h.fs := by
  cases fault <;> rfl

theorem tryMove_fs : (after (tryMove env r target dest route destPath) h).fs =
    after (shutilMove env r.move ⟨.ring, target⟩ ⟨dest, target⟩) h.fs := by
  cases hmove : shutilMove env r.move ⟨.ring, target⟩ ⟨dest, target⟩ h.fs with
  | ok u fs' =>
    rw [after_ok hmove, after, tryMove, hmove]
    cases r.first with
    | none => rfl
    | lost | late | torn => exact after_log_fs r.second _ _ _
  | error e fs' =>
    rw [after_error hmove, after, tryMove, hmove]
    exact after_log_fs r.first _ _ _

theorem log_none {fault : LogFault} (hfault : fault = .none) (ts : String) (m : Msg) (h : Host) :
    log fault ts m h = .ok () { h with log := h.log ++ [.whole ⟨ts, m⟩] } := by
  subst hfault
  rfl

theorem tryMove_line {line : String} {fs' : FS} (hfirst : r.first = .none)
    (hok : moveTo env r.move target dest route destPath h.fs = .ok line fs') :
    ∃ m : Msg, m.text = line ∧
      tryMove env r target dest route destPath h = .ok () ⟨fs', h.log ++ [.whole ⟨r.firstTs, m⟩]⟩ := by
  cases hmove : shutilMove env r.move ⟨.ring, target⟩ ⟨dest, target⟩ h.fs with
  | ok u t =>
    simp only [moveTo, hmove] at hok
    cases hok
    refine ⟨.moved target route destPath, rfl, ?_⟩
    simp only [tryMove, hmove, log_none hfirst]
  | error e t =>
    simp only [moveTo, hmove] at hok
    cases hok
    refine ⟨.failed target route e, rfl, ?_⟩
    simp only [tryMove, hmove, log_none hfirst]

/-- The two programs from the second listing on, by what they find. -/
inductive Picks (cfg : Config) (env : Env) (r : LoggedRun) (h : Host) : Prop
  | nothing : MoveOldest.pickAndMove cfg env r.toMoverRun h.fs = .ok Msg.nothing.text h.fs →
      pickAndMove cfg env r h = log r.first r.firstTs .nothing h → Picks cfg env r h
  | unmade {e : String} : MoveOldest.pickAndMove cfg env r.toMoverRun h.fs = .error e h.fs →
      pickAndMove cfg env r h = .error e h → Picks cfg env r h
  | moves {target : Name} {dest : Dir} {route destPath : String} : dest ≠ .ring →
      MoveOldest.pickAndMove cfg env r.toMoverRun h.fs =
        moveTo env r.move target dest route destPath h.fs →
      pickAndMove cfg env r h = tryMove env r target dest route destPath h → Picks cfg env r h

theorem picks (cfg : Config) (env : Env) (r : LoggedRun) (h : Host) : Picks cfg env r h := by
  cases hpick : pickOldestClosed r.now h.fs with
  | none =>
    refine .nothing ?_ ?_
    · simp only [MoveOldest.pickAndMove, bind_of_ok get_apply, hpick]
      rfl
    · simp only [pickAndMove, bind_of_ok get_apply, hpick]
  | some target =>
    cases hdrive : detectExportDrive r.mounts cfg.minFreePct r.date cfg.mountCandidates with
    | none =>
      refine .moves (by simp : Dir.backlog ≠ .ring)
        (?_ : _ = moveTo env r.move target .backlog "backlog" (cfg.backlogDir ++ "/" ++ target) h.fs) ?_
      · simp only [MoveOldest.pickAndMove, bind_of_ok get_apply, hpick, hdrive]
      · simp only [pickAndMove, bind_of_ok get_apply, hpick, hdrive]
    | some found =>
      obtain ⟨mount, dest⟩ := found
      have hdest : dest ≠ .ring := by
        rw [(detectExportDrive_mounted hdrive).2]
        simp
      cases hmkdir : r.mkdir with
      | none =>
        refine .moves hdest (?_ : _ = moveTo env r.move target dest ("export(" ++ mount ++ ")")
          (mount ++ "/pcap/" ++ r.date ++ "/" ++ target) h.fs) ?_
        · simp only [MoveOldest.pickAndMove, bind_of_ok get_apply, hpick, hdrive, hmkdir,
            bind_of_ok raiseIf_none]
        · simp only [pickAndMove, bind_of_ok get_apply, hpick, hdrive, hmkdir, bind_of_ok raiseIf_none]
      | some e =>
        refine .unmade (e := e) ?_ ?_
        · simp only [MoveOldest.pickAndMove, bind_of_ok get_apply, hpick, hdrive, hmkdir]
          rfl
        · simp only [pickAndMove, bind_of_ok get_apply, hpick, hdrive, hmkdir]
          rfl

/-- Whatever happens to the log, the files are as the mover without it leaves them. -/
theorem main_fs (cfg : Config) (env : Env) (r : LoggedRun) (h : Host) :
    (after (main cfg env r) h).fs = after (MoveOldest.main cfg env r.toMoverRun) h.fs := by
  have hpick : ∀ h : Host, (after (pickAndMove cfg env r) h).fs =
      after (MoveOldest.pickAndMove cfg env r.toMoverRun) h.fs := by
    intro h
    rcases picks cfg env r h with ⟨hmover, hlogged⟩ | ⟨hmover, hlogged⟩ | ⟨-, hmover, hlogged⟩
    · rw [after_ok hmover, after, hlogged]
      exact after_log_fs _ _ _ _
    · rw [after_error hmover, after_error hlogged]
    · rw [after, hlogged, after, hmover]
      obtain ⟨line, hline⟩ := moveTo_ok env r.move _ _ _ _ h.fs
      rw [hline]
      exact tryMove_fs
  unfold main MoveOldest.main
  rw [after_bind_ok get_apply, after_bind_ok get_apply]
  by_cases hfew : (ringPcaps h.fs).length < cfg.thresh
  · simp only [hfew, if_true]
    exact after_log_fs _ _ _ _
  · simp only [hfew, if_false]
    rw [after_bind_ok (modify_apply _), after_bind_ok (modify_apply _), hpick]

theorem main_line {line : String} {fs' : FS} (hfirst : r.first = .none)
    (hmain : MoveOldest.main cfg env r.toMoverRun h.fs = .ok line fs') :
    ∃ m : Msg, m.text = line ∧ main cfg env r h = .ok () ⟨fs', h.log ++ [.whole ⟨r.firstTs, m⟩]⟩ := by
  unfold MoveOldest.main at hmain
  unfold main
  rw [bind_of_ok get_apply] at hmain ⊢
  by_cases hfew : (ringPcaps h.fs).length < cfg.thresh
  · simp only [hfew, if_true] at hmain ⊢
    cases hmain
    exact ⟨.few _ _, rfl, log_none hfirst _ _ _⟩
  · simp only [hfew, if_false] at hmain ⊢
    rw [bind_of_ok (modify_apply _)] at hmain ⊢
    rcases picks cfg env r { h with fs := captureAll h.fs r.between } with
      ⟨hmover, hlogged⟩ | ⟨hmover, hlogged⟩ | ⟨-, hmover, hlogged⟩
    · cases hmover.symm.trans hmain
      exact ⟨.nothing, rfl, hlogged.trans (log_none hfirst _ _ _)⟩
    · cases hmover.symm.trans hmain
    · obtain ⟨m, hm, htry⟩ := tryMove_line hfirst (hmover.symm.trans hmain)
      exact ⟨m, hm, hlogged.trans htry⟩

end

/-! ## What left the ring -/

/-- The names that were in the ring and are not. -/
def departed (before after : FS) : List Name :=
  (before.names .ring).filter fun n => (after.read ⟨.ring, n⟩).isNone

/-- The lines of the log that are intact. -/
def intactLines (ps : List (LineLog.Piece Entry)) : List Entry := LineLog.intact Entry.line true ps

/-- The file that a line says was moved. -/
def movedName (e : Entry) : Option Name :=
  match e.msg with
  | .moved target _ _ => some target
  | _ => none

/-- The names the `[moved]` lines that are intact give. -/
def movedNames (ps : List (LineLog.Piece Entry)) : List Name := (intactLines ps).filterMap movedName

/-- Those lines are lines of the text, where no message has a line break in it. -/
theorem intactLines_in_text (h : Host) (hline : ∀ p ∈ h.log, '\n' ∉ p.entry.line) :
    ((intactLines h.log).map Entry.line).Sublist (h.text.splitOnP (· == '\n')) :=
  LineLog.intact_sublist_lines hline

section
variable {env : Env} {fs fs' : FS} {n target : Name} {f : File} {dest : Dir} {fl : MoveFaults} {u : Unit}
  {e : String}

end

/-- The call raises without its whole line. -/
def LogFault.loses : LogFault → Nat
  | .lost _ | .torn _ _ => 1
  | .none | .late _ => 0

/-- The call stops inside its line. -/
def LogFault.tears : LogFault → Nat
  | .torn _ _ => 1
  | .none | .lost _ | .late _ => 0

/-- One for a first call that raises without its whole line, and one for each call that is
made and stops inside its line. -/
def LoggedRun.cost (r : LoggedRun) : Nat :=
  r.first.loses + r.first.tears + if r.first = .none then 0 else r.second.tears

/-- What the end of the log may still cost: the next line, if there is a beginning of one. -/
def debt (ps : List (LineLog.Piece Entry)) : Nat := if LineLog.ends Entry.line true ps then 0 else 1

/-- The files when the run picks: capture may have written since it counted. -/
def seen (cfg : Config) (r : MoverRun) (fs : FS) : FS :=
  if (ringPcaps fs).length < cfg.thresh then fs else captureAll fs r.between

/-- How the log and the ring change together: `told` are the names that new lines give. -/
structure Tells (cost : Nat) (fs : FS) (ps : List (LineLog.Piece Entry)) (h' : Host) (told : List Name) :
    Prop where
  lines : movedNames h'.log = movedNames ps ++ told
  gone : told.Sublist (departed fs h'.fs)
  paid : (departed fs h'.fs).length + debt h'.log ≤ told.length + debt ps + cost

section
variable {cfg : Config} {env : Env} {r : LoggedRun} {h : Host} {target : Name} {dest : Dir}
  {route destPath ts e : String} {m : Msg} {fault : LogFault}

end

/-! ## Whole runs -/

/-- The host, and what has left the ring by the mover so far. -/
structure Watch where
  host : Host
  left : List Name := []

/-- Captures, and runs of the mover. -/
inductive Act where
  | capture (writes : List (Name × File))
  | run (r : LoggedRun)

/-- A run is watched for what it takes out of the ring. -/
def step (cfg : Config) (env : Env) (w : Watch) : Act → Option Watch
  | .capture writes => some { w with host := { w.host with fs := captureAll w.host.fs writes } }
  | .run r =>
    let host := after (main cfg env r) w.host
    some ⟨host, w.left ++ departed (seen cfg r.toMoverRun w.host.fs) host.fs⟩

/-- What the log may miss on its account. -/
def Act.cost : Act → Nat
  | .capture _ => 0
  | .run r => r.cost

/-- Three files leave the ring. The line of the first breaks off, and the handler's
continues it; the log cannot be written at all when the second does. -/
def benchActs : List Act :=
  [.capture [("a.pcap", ⟨[0x61], 0⟩), ("b.pcap", ⟨[0x62], 20⟩)],
    .run { now := 30, mounts := noMounts, date := "20260101", first := .torn 11 "[Errno 28]" },
    .capture [("c.pcap", ⟨[0x61], 40⟩)],
    .run { now := 50, mounts := noMounts, date := "20260101", first := .lost "[Errno 28]" },
    .capture [("d.pcap", ⟨[0x61], 60⟩)],
    .run { now := 70, mounts := noMounts, date := "20260101" }]

end SeerSensor.MoverLog
