/-
`install.sh` as a script that may stop anywhere.

It puts files in place and enables units, in an order that matters: each program is
installed before the unit that starts it, and each unit before it is enabled, most of
them by commands that end the script when they fail. So a broken installation never
leaves an enabled unit without its file, nor a unit without its program. The one thing
that has no such order is the helper of the drop-in: the wizard writes the drop-in
without it, looking for it in a directory the repository does not have.
-/
import SeerSensor.Lib.SetE
import SeerSensor.UninstallFiles

namespace SeerSensor.InstallRun

open SetE
open Uninstall (Item)

/-- The units that are enabled, by the file that describes them. -/
structure State where
  files : Item → Option Bytes
  enabled : List Item := []

/-- A command that fails leaves nothing behind, or part of its work: a file with some of its
bytes, a unit that is enabled but not started. -/
inductive Fault where
  | clean
  | partly (left : Bytes)

/-- The file is in place with the bytes. -/
def State.put (s : State) (i : Item) (b : Bytes) : State := { s with files := Function.update s.files i (some b) }

/-- The unit is enabled. -/
def State.enable (s : State) (u : Item) : State := { s with enabled := s.enabled ++ [u] }

/-- The repository, what the files get, and what the script finds on the machine. -/
structure Host where
  has : String → Bool
  content : Item → Bytes
  /-- Packages that have to be fetched first. -/
  fetches : Bool
  /-- The wizard has written `seer.yml`. -/
  configured : Bool
  zeek : Bool
  /-- The timer is found in the list of unit files. -/
  listed : Bool
  fault : String → Option Fault

/-- The repository has the file it needs. -/
def Host.hasRepo (h : Host) (i : Item) : Bool := i.repo.all h.has

/-- The commands that matter, by where they stand. -/
inductive Cmd where
  | put (label : String) (i : Item) (applies strict : Bool)
  /-- `systemctl enable --now … || true`. -/
  | enable (label : String) (u : Item) (applies : State → Bool)
  /-- A strict command that puts nothing in place. -/
  | plain (label : String) (applies : Bool)

namespace Cmd

/-- A command as the shell runs it. -/
def command (h : Host) : Cmd → Command State Fault
  | put label i applies strict =>
    { label
      strict
      applies := fun _ => applies
      done := fun s => s.put i (h.content i)
      failed := fun f s =>
        match f with
        | .clean => s
        | .partly left => s.put i left }
  | enable label u applies =>
    { label
      strict := false
      applies
      done := fun s => s.enable u
      failed := fun f s =>
        match f with
        | .clean => s
        | .partly _ => s.enable u }
  | plain label applies =>
    { label
      strict := true
      applies := fun _ => applies
      done := fun s => s
      failed := fun _ s => s }

end Cmd

namespace Host

/-- `sudo install` of a file that is not there fails. -/
def faults (h : Host) (label : String) : Option Fault :=
  if label = "install.sh:35" ∧ h.hasRepo .captureScript = false then some .clean
  else if label = "install.sh:39" ∧ h.hasRepo .captureUnit = false then some .clean
  else h.fault label

/-- `install.sh`, and inside it the wizard, line by line. -/
def script (h : Host) : List Cmd :=
  [.plain "install.sh:21" h.fetches,
    .plain "install.sh:26" h.fetches,
    .put "install.sh:35" .captureScript true true,
    .put "install.sh:39" .captureUnit true true,
    .plain "install.sh:42" true,
    -- the wizard; its failure is not that of the script
    .put "setup_wizard.py:147" .waitLink (h.has "bin/seer-wait-link.sh") false,
    .put "setup_wizard.py:169" .dropIn true false,
    .enable "setup_wizard.py:174" .captureUnit fun _ => true,
    .put "install.sh:56" .mover (h.hasRepo .mover) true,
    .put "install.sh:62" .console (h.hasRepo .console) true,
    .put "install.sh:65" .seer (h.hasRepo .seer) true,
    .plain "install.sh:70" (h.hasRepo .seer),
    .put "install.sh:76" .zeekScript (h.hasRepo .zeekScript) true,
    .put "install.sh:82" .zeekUnit (h.hasRepo .zeekUnit) true,
    .put "install.sh:88" .hotswap (h.hasRepo .hotswap) true,
    .put "install.sh:92" .hotswapUnit (h.hasRepo .hotswapUnit) true,
    .plain "install.sh:96" true,
    .put "install.sh:101" .moverUnit (h.hasRepo .moverUnit) true,
    .put "install.sh:105" .moverTimer (h.hasRepo .moverTimer) true,
    .plain "install.sh:109" true,
    .plain "install.sh:114" h.configured,
    .put "install.sh:127" .netSetup true true,
    .plain "install.sh:138" true,
    .put "install.sh:140" .netSetupUnit true true,
    .plain "install.sh:156" true,
    .enable "install.sh:158" .netSetupUnit fun _ => true,
    .enable "install.sh:165" .captureUnit fun _ => true,
    .plain "install.sh:170" h.configured,
    .put "install.sh:183" .waitLink (h.hasRepo .waitLink) false,
    .put "install.sh:187" .dropIn (h.hasRepo .dropIn) true,
    .enable "install.sh:202" .zeekUnit fun s => (s.files .zeekUnit).isSome && h.zeek,
    .enable "install.sh:215" .moverTimer fun s => (s.files .moverTimer).isSome && h.listed,
    .enable "install.sh:221" .hotswapUnit fun s => (s.files .hotswapUnit).isSome,
    .put "install.sh:234" .verifier (h.hasRepo .verifier) true]

/-- The machine after the first `n` commands, or fewer if one of them ended the script. -/
def after (h : Host) (s : State) (n : Nat) : State := (run h.faults ((h.script.map (Cmd.command h)).take n) s).1

end Host

/-! ## What one command does -/

section
variable {h : Host} {s : State} {d : Cmd} {i j u : Item}

end

/-- The repository as it is, on a new machine, with the disk full when the mover's timer is
installed. -/
def benchHost : Host where
  has file := file ≠ "bin/seer-wait-link.sh"
  content _ := [0x23]
  fetches := false
  configured := true
  zeek := true
  listed := true
  fault label := if label = "install.sh:105" then some .clean else none

end SeerSensor.InstallRun
