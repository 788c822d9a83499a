/-
The command lines the console hands to a shell for its log and status views.

They are built from names that come from the environment and from `seer.yml`, and no
one checks those. Each goes through `shlex.quote`, and that is enough: whatever the
names hold, the shell runs the commands that were meant, with each name as one word.
-/
import SeerSensor.Lib.ShellWords

namespace SeerSensor.Console

open ShellWords

/-- What the console reads when it is started: `os.environ`, and the two values of
`seer.yml`, if that is a mapping. -/
structure Boot where
  env : String → Option String
  yaml : Option (Option String × Option String)

namespace Boot

/-- Python's `or` of two strings. -/
def orElse (a b : String) : String := if a = "" then b else a

/-- `_IFACE_BOOT`. -/
def iface (interface : Option String) : String := interface.getD "enp2s0"

/-- `CAPTURE_SERVICE`, after the configuration was read. -/
def captureService (b : Boot) : String :=
  let set := orElse ((b.env "CAPTURE_SERVICE").getD "") "seer-capture@enp1s0.service"
  match b.yaml with
  | some (interface, _) =>
    if (b.env "CAPTURE_SERVICE").getD "" = "" then "seer-capture@" ++ iface interface ++ ".service" else set
  | none => set

/-- `MOVER_SERVICE`. -/
def moverService (b : Boot) : String := (b.env "MOVER_SERVICE").getD "seer-move-oldest.service"

/-- `MOVER_TIMER`. -/
def moverTimer (b : Boot) : String := (b.env "MOVER_TIMER").getD "seer-move-oldest.timer"

/-- `SHIPPER_SERVICE`. -/
def shipperService (b : Boot) : String := (b.env "SHIPPER_SERVICE").getD "seer-shipper.service"

/-- `HOTSWAP_SERVICE`. -/
def hotswapService (b : Boot) : String := (b.env "HOTSWAP_SERVICE").getD "seer-hotswap.service"

/-- `JSON_SPOOL`, after the configuration was read. -/
def jsonSpool (b : Boot) : String :=
  let set := (b.env "JSON_SPOOL").getD "/var/seer/json_spool"
  match b.yaml with
  | some (_, spool) => orElse (spool.getD set) set
  | none => set

end Boot

/-- The keys that open a view. -/
inductive View where
  | c
  | m
  | h
  | s
  | j
  | p
  deriving DecidableEq

/-- `journalctl` of a unit. -/
def journal (unit : String) : List Char :=
  "journalctl -u ".toList ++ quote unit ++ " -n 400 --no-pager | less -SRX".toList

/-- `systemctl status` of units. -/
def status (units : List String) : List Char :=
  "systemctl status ".toList ++ quoteAll units ++ " --no-pager -l | less -SRX".toList

/-- The units of the status view, the timer's only if it has a name. -/
def statusUnits (b : Boot) : List String :=
  [b.captureService, b.moverService] ++ if b.moverTimer ≠ "" then [b.moverTimer] else []

/-- The line given to `os.system`. -/
def command (b : Boot) : View → List Char
  | .c => journal b.captureService
  | .m => journal b.moverService
  | .h => journal b.hotswapService
  | .s => status (statusUnits b)
  | .j => "ls -lt ".toList ++ quote b.jsonSpool ++ " | head -n 200".toList ++
      " | sed -n '1,200p' | less -SRX".toList
  | .p => status [b.shipperService]

/-- The arguments that each view's command is paged with. -/
def pager : List String := ["less", "-SRX"]

/-- The commands that are meant. -/
def meant (b : Boot) : View → List (List String)
  | .c => [["journalctl", "-u", b.captureService, "-n", "400", "--no-pager"], pager]
  | .m => [["journalctl", "-u", b.moverService, "-n", "400", "--no-pager"], pager]
  | .h => [["journalctl", "-u", b.hotswapService, "-n", "400", "--no-pager"], pager]
  | .s => [["systemctl", "status"] ++ statusUnits b ++ ["--no-pager", "-l"], pager]
  | .j => [["ls", "-lt", b.jsonSpool], ["head", "-n", "200"], ["sed", "-n", "1,200p"], pager]
  | .p => [["systemctl", "status", b.shipperService, "--no-pager", "-l"], pager]

/-! ## What the shell makes of them -/

theorem journal_pipeline (unit : String) :
    pipeline (journal unit) = some [["journalctl", "-u", unit, "-n", "400", "--no-pager"], pager] := by
  have hrun : Runs.run step {} (journal unit) = some ⟨[.word "journalctl".toList, .word "-u".toList,
      .word unit.toList, .word "-n".toList, .word "400".toList, .word "--no-pager".toList, .op '|',
      .word "less".toList], some "-SRX".toList, .plain⟩ :=
    Runs.run_append.mpr ⟨_, Runs.run_append.mpr
      ⟨⟨[.word "journalctl".toList, .word "-u".toList], none, .plain⟩, rfl, run_quote unit none⟩, rfl⟩
  exact pipeline_of_tokens (tokens_of_run hrun) (by simp [pager])

theorem status_pipeline (units : List String) (unit : String) :
    pipeline (status (units ++ [unit])) =
      some [["systemctl", "status"] ++ (units ++ [unit]) ++ ["--no-pager", "-l"], pager] := by
  have hrun : Runs.run step {} (status (units ++ [unit])) = some ⟨[.word "systemctl".toList,
      .word "status".toList] ++ units.map (fun a => .word a.toList) ++ [.word unit.toList,
      .word "--no-pager".toList, .word "-l".toList, .op '|', .word "less".toList],
      some "-SRX".toList, .plain⟩ := by
    refine Runs.run_append.mpr ⟨_, Runs.run_append.mpr
      ⟨⟨[.word "systemctl".toList, .word "status".toList], none, .plain⟩, rfl, run_quoteAll units unit⟩, ?_⟩
    have hrest : Runs.run step ⟨[], some unit.toList, .plain⟩ " --no-pager -l | less -SRX".toList =
        some ⟨[.word unit.toList, .word "--no-pager".toList, .word "-l".toList, .op '|', .word "less".toList],
          some "-SRX".toList, .plain⟩ := rfl
    have hbehind := run_behind ([.word "systemctl".toList, .word "status".toList] ++
      units.map fun a => .word a.toList) ⟨[], some unit.toList, .plain⟩ " --no-pager -l | less -SRX".toList
    rw [hrest] at hbehind
    simpa only [Option.map_some, Reader.behind, List.append_nil] using hbehind
  refine pipeline_of_tokens ((tokens_of_run hrun).trans (congrArg some ?_)) (by simp [pager])
  simp only [pipes, pager, List.map_append, List.map_cons, List.map_nil, List.append_assoc, List.cons_append,
    List.nil_append]

theorem spool_pipeline (dir : String) :
    pipeline ("ls -lt ".toList ++ quote dir ++ " | head -n 200".toList ++
        " | sed -n '1,200p' | less -SRX".toList) =
      some [["ls", "-lt", dir], ["head", "-n", "200"], ["sed", "-n", "1,200p"], pager] := by
  have hrun : Runs.run step {} ("ls -lt ".toList ++ quote dir ++ " | head -n 200".toList ++
      " | sed -n '1,200p' | less -SRX".toList) = some ⟨[.word "ls".toList, .word "-lt".toList,
      .word dir.toList, .op '|', .word "head".toList, .word "-n".toList, .word "200".toList, .op '|',
      .word "sed".toList, .word "-n".toList, .word "1,200p".toList, .op '|', .word "less".toList],
      some "-SRX".toList, .plain⟩ :=
    Runs.run_append.mpr ⟨_, Runs.run_append.mpr ⟨_, Runs.run_append.mpr
      ⟨⟨[.word "ls".toList, .word "-lt".toList], none, .plain⟩, rfl, run_quote dir none⟩, rfl⟩, rfl⟩
  exact pipeline_of_tokens (tokens_of_run hrun) (by simp [pager])

theorem statusUnits_last (b : Boot) : ∃ units unit, statusUnits b = units ++ [unit] := by
  unfold statusUnits
  split_ifs
  · exact ⟨[b.captureService, b.moverService], b.moverTimer, rfl⟩
  · exact ⟨[b.captureService], b.moverService, rfl⟩

/-- **The shell runs what is meant.** For every environment, every `seer.yml` and every view:
whatever characters are in the names of the units and of the spool, the shell splits the
line into the commands that are meant, with each name as one word of them. -/
theorem views_run_as_meant (b : Boot) (v : View) : pipeline (command b v) = some (meant b v) := by
  cases v with
  | c => exact journal_pipeline b.captureService
  | m => exact journal_pipeline b.moverService
  | h => exact journal_pipeline b.hotswapService
  | s =>
    obtain ⟨units, unit, hunits⟩ := statusUnits_last b
    show pipeline (status (statusUnits b)) =
      some [["systemctl", "status"] ++ statusUnits b ++ ["--no-pager", "-l"], pager]
    rw [hunits]
    exact status_pipeline units unit
  | j => exact spool_pipeline b.jsonSpool
  | p => exact status_pipeline [] b.shipperService

/-- A unit's name that would be three commands without its quotes. -/
example : pipeline (command ⟨fun k => if k = "MOVER_SERVICE" then some "a; reboot | 'b" else none, none⟩ .m) =
    some [["journalctl", "-u", "a; reboot | 'b", "-n", "400", "--no-pager"], pager] := by
  decide +kernel

end SeerSensor.Console
