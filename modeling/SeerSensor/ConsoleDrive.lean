/-
The console's drive panel: which mount it shows, and whose files it counts.

The console has no access to what the exporter chose, and repeats the search
in four places: to count the files, in the compact and in the full screen, and
in `--once`. Each takes the first candidate that is mounted, where the exporter
asks in addition that it is writable, statable and free enough; and without
`export.mount_candidates` the console knows one candidate and the exporter
three. Its list is always the beginning of the exporter's, which is why the two
agree as soon as the first mounted candidate qualifies.
-/
import SeerSensor.Published

namespace SeerSensor.Console

open MainLoop (StateFile drivePresent)

/-- The `export` section of `seer.yml`. -/
structure ExportSection where
  mountCandidates : Option (List String) := none
  minFreePct : Option ℚ := none

/-- What of `seer.yml` the searches read. -/
structure Config where
  exportSection : Option ExportSection := none

/-- The candidates of `main_loop`. -/
def Config.exporterCandidates (cfg : Config) : List String :=
  (cfg.exportSection.getD {}).mountCandidates.getD
    ["/mnt/seer_external", "/mnt/SEER_EXT", "/media/seer_external"]

/-- `export.min_free_pct`, with its default. -/
def Config.minFreePct (cfg : Config) : ℚ := (cfg.exportSection.getD {}).minFreePct.getD 2

/-- The candidates of the console, in all four places. -/
def Config.consoleCandidates (cfg : Config) : List String :=
  (cfg.exportSection.getD {}).mountCandidates.getD ["/mnt/seer_external"]

/-- What the console finds: the mounts, and how many `*.pcap*` files are below a
path (an `OSError` in place of a number). -/
structure Surroundings where
  mounts : Mounts
  pcaps : String → Except String Nat
  stateFile : StateFile

/-- `for candidate in mount_candidates: if os.path.ismount(candidate): ...; break`. -/
def firstMounted (ismount : String → Bool) : List String → Option String
  | [] => none
  | candidate :: rest => if ismount candidate then some candidate else firstMounted ismount rest

/-- What is on the screen about a connected drive: the mount, the path whose files
were counted and their number. -/
structure Panel where
  mount : String
  counted : Option String
  onDrive : Option Nat
  deriving DecidableEq

/-- `active_mount`, which starts as `"drive"`. -/
def activeMount (env : Surroundings) (cfg : Config) : String :=
  (firstMounted env.mounts.ismount cfg.consoleCandidates).getD "drive"

/-- `drive_pcap_count`, which stays 0 with nothing mounted and on an `OSError`. -/
def drivePcapCount (env : Surroundings) (cfg : Config) : Nat :=
  match firstMounted env.mounts.ismount cfg.consoleCandidates with
  | none => 0
  | some candidate =>
    match env.pcaps candidate with
    | .ok n => n
    | .error _ => 0

/-- `none` is "not connected". -/
def tuiPanel (env : Surroundings) (cfg : Config) : Option Panel :=
  if drivePresent env.stateFile then
    some
      { mount := activeMount env cfg
        counted := firstMounted env.mounts.ismount cfg.consoleCandidates
        onDrive := some (drivePcapCount env cfg) }
  else
    none

/-- The compact screen has the panel of the full one. -/
def compactPanel (env : Surroundings) (cfg : Config) : Option Panel := tuiPanel env cfg

def fullPanel (env : Surroundings) (cfg : Config) : Option Panel := tuiPanel env cfg

/-- `main --once` counts below whatever it shows, also below `"drive"`. -/
def oncePanel (env : Surroundings) (cfg : Config) : Option Panel :=
  if drivePresent env.stateFile then
    some
      { mount := activeMount env cfg
        counted := some (activeMount env cfg)
        onDrive := (env.pcaps (activeMount env cfg)).toOption }
  else
    none

/-- The panel shows the mount and counts its files. -/
def Shows (mount : String) (panel : Option Panel) : Prop :=
  ∃ p, panel = some p ∧ p.mount = mount ∧ p.counted = some mount

/-- The console shows the mount, whichever way it is asked. -/
def ShowsEverywhere (env : Surroundings) (cfg : Config) (mount : String) : Prop :=
  Shows mount (compactPanel env cfg) ∧ Shows mount (fullPanel env cfg) ∧ Shows mount (oncePanel env cfg)

/-- The state file says that there is a drive, and the first candidate of the
console that is mounted is fit for export. -/
def FirstFits (env : Surroundings) (cfg : Config) : Prop :=
  drivePresent env.stateFile = true ∧
    ∃ c, firstMounted env.mounts.ismount cfg.consoleCandidates = some c ∧
      Qualifies env.mounts cfg.minFreePct c

section
variable {env : Surroundings} {cfg : Config} {mount : String}

theorem firstMounted_eq_find (ismount : String → Bool) (cs : List String) :
    firstMounted ismount cs = cs.find? ismount := by
  induction cs with
  | nil => rfl
  | cons c cs ih =>
    rw [firstMounted, List.find?_cons, ih]
    cases ismount c <;> rfl

theorem consoleCandidates_prefix (cfg : Config) : cfg.consoleCandidates <+: cfg.exporterCandidates := by
  unfold Config.consoleCandidates Config.exporterCandidates
  cases (cfg.exportSection.getD {}).mountCandidates with
  | none => exact ⟨["/mnt/SEER_EXT", "/media/seer_external"], rfl⟩
  | some cs => exact List.prefix_rfl

/-- All four searches find the same, so the console shows a mount exactly where
they find it. -/
theorem showsEverywhere_iff : ShowsEverywhere env cfg mount ↔
    drivePresent env.stateFile = true ∧
      firstMounted env.mounts.ismount cfg.consoleCandidates = some mount := by
  unfold ShowsEverywhere compactPanel fullPanel tuiPanel oncePanel Shows activeMount
  cases drivePresent env.stateFile with
  | false => simp
  | true =>
    cases firstMounted env.mounts.ismount cfg.consoleCandidates with
    | none => simp
    | some c => simp

theorem target_of_firstMounted
    (hfirst : firstMounted env.mounts.ismount cfg.consoleCandidates = some mount)
    (hfit : Qualifies env.mounts cfg.minFreePct mount) :
    (detectExportTarget env.mounts cfg.minFreePct cfg.exporterCandidates).map (·.1) = some mount := by
  obtain ⟨rest, hlist⟩ := consoleCandidates_prefix cfg
  rw [firstMounted_eq_find, List.find?_eq_some_iff_append] at hfirst
  obtain ⟨-, before, after, hsplit, hbefore⟩ := hfirst
  rw [detectExportTarget_eq_find, List.find?_eq_some_iff_append]
  refine ⟨by simpa using hfit, before, after ++ rest, ?_, fun c hc => ?_⟩
  · rw [← hlist, hsplit, List.append_assoc, List.cons_append]
  · -- what is not mounted does not qualify
    have hnot := hbefore c hc
    have hfail : ¬ Qualifies env.mounts cfg.minFreePct c := fun h => by simp [h.1] at hnot
    simpa using hfail

theorem target_qualifies {free : Nat}
    (h : detectExportTarget env.mounts cfg.minFreePct cfg.exporterCandidates = some (mount, free)) :
    mount ∈ cfg.exporterCandidates ∧ Qualifies env.mounts cfg.minFreePct mount := by
  have hfind := detectExportTarget_eq_find env.mounts cfg.minFreePct cfg.exporterCandidates
  rw [h] at hfind
  have hfound := hfind.symm
  exact ⟨List.mem_of_find?_eq_some hfound, by simpa using List.find?_some hfound⟩

end

/-- **When the console shows the drive the exporter writes to.** For every
configuration, with or without a list of candidates, and whatever the operating
system answers about them: the mount the exporter chooses is the one shown and
counted, in the compact and full screens and in `--once`, exactly when no
candidate qualifies, or the file says a drive is present and the first mounted
of the console's candidates qualifies. -/
theorem console_shows_target_iff (env : Surroundings) (cfg : Config) :
    (∀ mount free, detectExportTarget env.mounts cfg.minFreePct cfg.exporterCandidates = some (mount, free) →
      ShowsEverywhere env cfg mount) ↔
    (∀ c ∈ cfg.exporterCandidates, ¬ Qualifies env.mounts cfg.minFreePct c) ∨ FirstFits env cfg := by
  simp only [showsEverywhere_iff]
  refine ⟨fun h => ?_, fun h mount free htarget => ?_⟩
  · cases htarget : detectExportTarget env.mounts cfg.minFreePct cfg.exporterCandidates with
    | none =>
      left
      have hfind := detectExportTarget_eq_find env.mounts cfg.minFreePct cfg.exporterCandidates
      rw [htarget, Option.map_none] at hfind
      simpa using List.find?_eq_none.mp hfind.symm
    | some found =>
      right
      obtain ⟨hpresent, hfirst⟩ := h found.1 found.2 htarget
      exact ⟨hpresent, found.1, hfirst, (target_qualifies htarget).2⟩
  · obtain ⟨hmem, hfit⟩ := target_qualifies htarget
    rcases h with hnone | ⟨hpresent, c, hfirst, hc⟩
    · exact absurd hfit (hnone mount hmem)
    · have hsame := target_of_firstMounted hfirst hc
      rw [htarget, Option.map_some, Option.some.injEq] at hsame
      subst hsame
      exact ⟨hpresent, hfirst⟩

/-- A full drive at `/mnt/seer_external` and a half empty one at `/mnt/SEER_EXT`. -/
def twoMounts : Mounts where
  ismount := fun c => c = "/mnt/seer_external" ∨ c = "/mnt/SEER_EXT"
  writable := fun _ => true
  statvfs := fun c => .ok ⟨if c = "/mnt/SEER_EXT" then 50 else 0, 4096, 100⟩
  volume := fun c => c

/-- With the drives `m` mounted, three files below each, and a state file that
says a drive is present. -/
def benchSurroundings (m : Mounts) : Surroundings where
  mounts := m
  pcaps := fun _ => .ok 3
  stateFile := .written ⟨true, none, 0, "2026-01-01T00:01:40"⟩

/-- The two of them as candidates. -/
def twoCandidates : Config where
  exportSection := some { mountCandidates := some ["/mnt/seer_external", "/mnt/SEER_EXT"] }

/-- The exporter passes over a full drive that the console shows; and with no list
configured it finds a drive that the console does not look for. -/
theorem console_shows_other_mount :
    ((detectExportTarget twoMounts twoCandidates.minFreePct twoCandidates.exporterCandidates).map (·.1) =
        some "/mnt/SEER_EXT" ∧
      fullPanel (benchSurroundings twoMounts) twoCandidates =
        some ⟨"/mnt/seer_external", some "/mnt/seer_external", some 3⟩ ∧
      ¬ ShowsEverywhere (benchSurroundings twoMounts) twoCandidates "/mnt/SEER_EXT") ∧
    ((detectExportTarget (oneMount "SEER_EXT") (Config.minFreePct {}) (Config.exporterCandidates {})).map
        (·.1) = some "/mnt/SEER_EXT" ∧
      fullPanel (benchSurroundings (oneMount "SEER_EXT")) {} = some ⟨"drive", none, some 0⟩ ∧
      ¬ ShowsEverywhere (benchSurroundings (oneMount "SEER_EXT")) {} "/mnt/SEER_EXT") := by
  refine ⟨⟨by decide +kernel, by decide +kernel, ?_⟩, by decide +kernel, by decide +kernel, ?_⟩
  all_goals
    rw [showsEverywhere_iff]
    decide +kernel

end SeerSensor.Console
