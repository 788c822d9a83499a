/-
What `seer_uninstall.sh` does to the files of the machine, and what it leaves of an
installation.

The lists of units and programs are removed under `set -e`: one that cannot be removed
stops the script there. Everything later is best effort. Data goes only with
`--purge` in force, which a normal user never gets; then it is everything below the
fixed roots, wherever `seer.yml` has the ring and the backlog, and on each mounted
candidate the `pcap` tree and the two receipts.
-/
import SeerSensor.ConsoleDrive
import SeerSensor.Uninstall

namespace SeerSensor.Uninstall

open Raise

/-- An absolute path, by its components. -/
abbrev AbsPath := List (List Char)

/-- The components of a path that is written out. -/
@[irreducible] def path (s : String) : AbsPath := (s.toList.splitOnP (· = '/')).filter (· ≠ [])

/-- The regular files of the machine. -/
abbrev Tree := AbsPath → Option Bytes

/-- What the script finds, and what fails. -/
structure Machine where
  config : Console.Config := {}
  mountedAt : AbsPath → Bool
  /-- Files that cannot be removed. -/
  stuck : AbsPath → Bool := fun _ => false
  /-- How `systemctl daemon-reload` fails, if it does. -/
  reload : Option String := none

/-! ## The script from its first step on -/

/-- `rm` of what matches, for all it can remove. -/
def Machine.remove (m : Machine) (P : AbsPath → Bool) (t : Tree) : Tree :=
  fun q => if P q && !m.stuck q then none else t q

/-- `rm -f` of a list, without `|| true`: what cannot be removed ends the script. -/
def Machine.rmFiles (m : Machine) (ps : List AbsPath) : Prog Tree Unit := do
  let t ← get
  modify (m.remove fun q => q ∈ ps)
  raiseIf (if ps.any fun p => m.stuck p && (t p).isSome then some "rm: cannot remove" else none)

/-- `/run/zeek-*.pid` and `/run/zeek-*.lock`. -/
def runtimeFile : AbsPath → Bool
  | [dir, n] =>
    dir = "run".toList && "zeek-".toList.isPrefixOf n &&
      (".pid".toList.isSuffixOf (n.drop 5) || ".lock".toList.isSuffixOf (n.drop 5))
  | _ => false

/-- The units that are removed. -/
def unitFiles : List AbsPath :=
  ["/etc/systemd/system/seer-capture@.service", "/etc/systemd/system/seer-move-oldest.service",
    "/etc/systemd/system/seer-move-oldest.timer", "/etc/systemd/system/seer-move-oldest.path",
    "/etc/systemd/system/seer-zeek@.service", "/etc/systemd/system/seer-hotswap.service"].map path

/-- The programs that are removed. -/
def binaries : List AbsPath :=
  ["/usr/local/bin/seer-capture.sh", "/usr/local/bin/seer_console.py", "/usr/local/bin/seer-console",
    "/usr/local/bin/seer-zeek.sh", "/usr/local/bin/seer-move-oldest.py", "/usr/local/bin/seer_hotswap.py",
    "/usr/local/bin/seer", "/usr/local/bin/seer-toggle-drive",
    "/usr/local/bin/seer-verify-install.sh"].map path

/-- Copies of older installations. -/
def strays : List AbsPath := ["/usr/bin/seer-capture.sh", "/usr/bin/seer-console"].map path

/-- Inside the directory, at any depth. -/
def below (root q : AbsPath) : Bool := root.isPrefixOf q && q ≠ root

/-- `rm -rf --one-file-system "$c/pcap"`: nothing beyond a mount point inside it. -/
def Machine.exportTree (m : Machine) (c : String) (q : AbsPath) : Bool :=
  below (path c ++ ["pcap".toList]) q && !q.inits.any fun r => below (path c ++ ["pcap".toList]) r && m.mountedAt r

/-- The receipts at the root of a drive. -/
def receipts (c : String) : List AbsPath := [path c ++ ["MANIFEST.txt".toList], path c ++ ["TRANSFER.LOG".toList]]

/-- One turn of the loop in `purge_export_drive`. The directories it also removes are
empty. -/
def Machine.purgeMount (m : Machine) (t : Tree) (c : String) : Tree :=
  if c = "" then t
  else if m.mountedAt (path c) then m.remove (fun q => q ∈ receipts c) (m.remove (m.exportTree c) t)
  else t

/-- `purge_export_drive`, whose default is the console's. -/
def Machine.purgeExportDrive (m : Machine) (t : Tree) : Tree :=
  m.config.consoleCandidates.foldl m.purgeMount t

/-- The directories that `--purge` removes, and all that is in them. -/
def roots : List AbsPath :=
  ["/opt/seer", "/var/seer", "/var/seer/json_spool", "/var/seer/pcap_ring", "/opt/seer/var/queue",
    "/opt/seer/var/backlog", "/var/log/seer", "/var/log/zeek", "/var/lib/tcpdump/pcap_ring"].map path

/-- `rm -rf` of each of them. -/
def Machine.purgeRoots (m : Machine) (t : Tree) : Tree :=
  roots.foldl (fun t root => m.remove (below root) t) t

/-- Steps 1b to 4. -/
def Machine.script (m : Machine) (flags : Flags) : Prog Tree Unit := do
  modify (m.remove runtimeFile)
  m.rmFiles unitFiles
  raiseIf m.reload
  m.rmFiles binaries
  modify (m.remove fun q => q ∈ strays)
  modify fun t => if flags.purge then m.purgeRoots (m.purgeExportDrive t) else t

/-- The files after a call of the script. -/
def Machine.files (m : Machine) (name : String) (euid : Nat) (ans : String) (args : List String) (t : Tree) :
    Tree :=
  match inForce name euid args with
  | none => t
  | some flags => if confirm flags ans then after (m.script flags) t else t

/-! ## What may go -/

/-- The files of the programs. -/
def Owned (q : AbsPath) : Prop :=
  runtimeFile q = true ∨ q ∈ unitFiles ∨ q ∈ binaries ∨ q ∈ strays

/-- What is exported on a mounted candidate. -/
def Machine.Exported (m : Machine) (q : AbsPath) : Prop :=
  ∃ c ∈ m.config.consoleCandidates, c ≠ "" ∧ m.mountedAt (path c) = true ∧
    (m.exportTree c q = true ∨ q ∈ receipts c)

/-- The data a purge is for. -/
def Machine.Data (m : Machine) (q : AbsPath) : Prop :=
  m.Exported q ∨ ∃ root ∈ roots, below root q = true

/-- What a call removes, when it is let go on. -/
def Machine.Removes (m : Machine) (euid : Nat) (ans : String) (args : List String) (q : AbsPath) : Prop :=
  (euid = 0 ∧ ("--yes" ∈ args ∨ "-y" ∈ args) ∨ ans = "y" ∨ ans = "Y") ∧
    (Owned q ∨ (euid = 0 ∧ "--purge" ∈ args) ∧ m.Data q)

section
variable {m : Machine} {t t' : Tree} {q : AbsPath} {P : AbsPath → Bool} {flags : Flags}

theorem remove_eq (h : P q = false) : m.remove P t q = t q := by simp [Machine.remove, h]

theorem remove_none (h : t q = none) : m.remove P t q = none := by simp [Machine.remove, h]

theorem remove_free (hstuck : m.stuck q = false) (h : P q = true) : m.remove P t q = none := by
  simp [Machine.remove, h, hstuck]

theorem foldl_keeps {α : Type} {f : Tree → α → Tree} {l : List α} (h : ∀ a ∈ l, ∀ t, f t a q = t q) :
    l.foldl f t q = t q := by
  induction l generalizing t with
  | nil => rfl
  | cons a l ih =>
    obtain ⟨ha, hl⟩ := List.forall_mem_cons.mp h
    rw [List.foldl_cons, ih hl, ha]

theorem foldl_none {α : Type} {f : Tree → α → Tree} {l : List α} (h : ∀ a t, t q = none → f t a q = none)
    (ht : t q = none) : l.foldl f t q = none := by
  induction l generalizing t with
  | nil => exact ht
  | cons a l ih => exact ih (h a t ht)

theorem foldl_removes {α : Type} {f : Tree → α → Tree} {l : List α} {a : α}
    (h : ∀ a t, t q = none → f t a q = none) (ha : a ∈ l) (hrem : ∀ t, f t a q = none) :
    l.foldl f t q = none := by
  obtain ⟨before, after, rfl⟩ := List.append_of_mem ha
  rw [List.foldl_append, List.foldl_cons]
  exact foldl_none h (hrem _)

/-! ## Purging -/

theorem purgeMount_none (c : String) (t : Tree) (h : t q = none) : m.purgeMount t c q = none := by
  unfold Machine.purgeMount
  split_ifs
  · exact h
  · exact remove_none (remove_none h)
  · exact h

theorem purgeExportDrive_keeps (h : ¬ m.Exported q) : m.purgeExportDrive t q = t q := by
  refine foldl_keeps fun c hc t => ?_
  unfold Machine.purgeMount
  split_ifs with hempty hmounted
  · rfl
  · have hno : ¬ (m.exportTree c q = true ∨ q ∈ receipts c) := fun hq => h ⟨c, hc, hempty, hmounted, hq⟩
    rw [not_or, Bool.not_eq_true] at hno
    rw [remove_eq (decide_eq_false hno.2), remove_eq hno.1]
  · rfl

theorem purgeExportDrive_removes (hstuck : m.stuck q = false) (h : m.Exported q) :
    m.purgeExportDrive t q = none := by
  obtain ⟨c, hc, hempty, hmounted, hq⟩ := h
  refine foldl_removes purgeMount_none hc fun t => ?_
  rw [Machine.purgeMount, if_neg hempty, if_pos hmounted]
  rcases hq with hq | hq
  · exact remove_none (remove_free hstuck hq)
  · exact remove_free hstuck (decide_eq_true hq)

theorem purgeRoots_keeps (h : ∀ root ∈ roots, below root q = false) : m.purgeRoots t q = t q :=
  foldl_keeps fun root hroot _ => remove_eq (h root hroot)

theorem purgeRoots_removes {root : AbsPath} (hstuck : m.stuck q = false) (hroot : root ∈ roots)
    (h : below root q = true) : m.purgeRoots t q = none :=
  foldl_removes (fun _ _ => remove_none) hroot fun _ => remove_free hstuck h

theorem purgeRoots_none (h : t q = none) : m.purgeRoots t q = none :=
  foldl_none (fun _ _ => remove_none) h

/-! ## The script -/

/-- The second tree has every file of the first but what `S` is about. -/
def KeepsBut (S : AbsPath → Prop) (t t' : Tree) : Prop := ∀ q, ¬ S q → t' q = t q

theorem within_remove {S : AbsPath → Prop} (h : ∀ q, P q = true → S q) :
    Within (KeepsBut S) (modify (m.remove P) : Prog Tree PUnit) := fun _ q hq =>
  remove_eq (Bool.not_eq_true _ ▸ fun hp => hq (h q hp))

theorem keepsBut_refl {S : AbsPath → Prop} (t : Tree) : KeepsBut S t t := fun _ _ => rfl

theorem keepsBut_trans {S : AbsPath → Prop} (t u v : Tree) (h : KeepsBut S t u) (h' : KeepsBut S u v) :
    KeepsBut S t v := fun q hq => (h' q hq).trans (h q hq)

theorem within_rmFiles {S : AbsPath → Prop} {ps : List AbsPath} (h : ∀ q ∈ ps, S q) :
    Within (KeepsBut S) (m.rmFiles ps) := by
  refine within_bind keepsBut_trans (fun t => keepsBut_refl t) fun t => ?_
  refine within_bind keepsBut_trans (within_remove fun q hq => h q (of_decide_eq_true hq)) fun _ => ?_
  exact within_raiseIf keepsBut_refl _

/-- Whatever fails, only what the flags allow is removed. -/
theorem script_within (m : Machine) (flags : Flags) :
    Within (KeepsBut fun q => Owned q ∨ flags.purge = true ∧ m.Data q) (m.script flags) := by
  refine within_bind keepsBut_trans (within_remove fun q hq => .inl (.inl hq)) fun _ => ?_
  refine within_bind keepsBut_trans (within_rmFiles fun q hq => .inl (.inr (.inl hq))) fun _ => ?_
  refine within_bind keepsBut_trans (within_raiseIf keepsBut_refl _) fun _ => ?_
  refine within_bind keepsBut_trans (within_rmFiles fun q hq => .inl (.inr (.inr (.inl hq)))) fun _ => ?_
  refine within_bind keepsBut_trans
    (within_remove fun q hq => .inl (.inr (.inr (.inr (of_decide_eq_true hq))))) fun _ => ?_
  intro t q hq
  rw [not_or, not_and, Machine.Data, not_or, not_exists] at hq
  rw [after_ok (modify_apply _)]
  split_ifs with hpurge
  · rw [purgeRoots_keeps, purgeExportDrive_keeps (hq.2 hpurge).1]
    intro root hroot
    exact Bool.eq_false_iff.mpr fun hbelow => (hq.2 hpurge).2 root ⟨hroot, hbelow⟩
  · rfl

theorem rmFiles_free (hstuck : ∀ q, m.stuck q = false) (ps : List AbsPath) :
    m.rmFiles ps t = .ok () (m.remove (fun q => q ∈ ps) t) := by
  have hnone : (ps.any fun p => m.stuck p && (t p).isSome) = false := by simp [hstuck]
  simp only [Machine.rmFiles, bind_of_ok get_apply, bind_of_ok (modify_apply _), hnone]
  rfl

theorem script_removes (hstuck : ∀ q, m.stuck q = false) (hreload : m.reload = none)
    (h : Owned q ∨ flags.purge = true ∧ m.Data q) : after (m.script flags) t q = none := by
  let left := m.remove (fun q => q ∈ strays) (m.remove (fun q => q ∈ binaries)
    (m.remove (fun q => q ∈ unitFiles) (m.remove runtimeFile t)))
  have hleft : Owned q → left q = none := by
    rintro (hq | hq | hq | hq)
    · exact remove_none (remove_none (remove_none (remove_free (hstuck q) hq)))
    · exact remove_none (remove_none (remove_free (hstuck q) (decide_eq_true hq)))
    · exact remove_none (remove_free (hstuck q) (decide_eq_true hq))
    · exact remove_free (hstuck q) (decide_eq_true hq)
  have hscript : after (m.script flags) t =
      if flags.purge = true then m.purgeRoots (m.purgeExportDrive left) else left := by
    rw [Machine.script, after_bind_ok (modify_apply _), after_bind_ok (rmFiles_free hstuck _), hreload,
      after_bind_ok raiseIf_none, after_bind_ok (rmFiles_free hstuck _), after_bind_ok (modify_apply _),
      after_ok (modify_apply _)]
  rw [hscript]
  rcases h with howned | ⟨hpurge, hexported | ⟨root, hroot, hbelow⟩⟩
  · split_ifs
    · exact purgeRoots_none (foldl_none purgeMount_none (hleft howned))
    · exact hleft howned
  · rw [if_pos hpurge]
    exact purgeRoots_none (purgeExportDrive_removes (hstuck q) hexported)
  · rw [if_pos hpurge]
    exact purgeRoots_removes (hstuck q) hroot hbelow

theorem inForce_flags {name : String} {args : List String} (euid : Nat) (h : Accepted name args) (ans : String) :
    ∃ flags, inForce name euid args = some flags ∧
      (confirm flags ans = true ↔ euid = 0 ∧ ("--yes" ∈ args ∨ "-y" ∈ args) ∨ ans = "y" ∨ ans = "Y") ∧
      (flags.purge = true ↔ euid = 0 ∧ "--purge" ∈ args) := by
  by_cases hroot : euid = 0
  · subst hroot
    exact ⟨flagsOf args, inForce_root h, by simp [confirm, flagsOf, or_assoc], by simp [flagsOf]⟩
  · exact ⟨{}, inForce_unprivileged hroot h, by simp [confirm, hroot], by simp [hroot]⟩

variable {name : String} {euid : Nat} {ans : String} {args : List String}

theorem files_keeps (h : Accepted name args) (hq : ¬ m.Removes euid ans args q) :
    m.files name euid ans args t q = t q := by
  obtain ⟨flags, hflags, hconfirm, hpurge⟩ := inForce_flags euid h ans
  rw [Machine.files, hflags]
  dsimp only
  split_ifs with hgo
  · refine script_within m flags t q fun hmay => hq ⟨hconfirm.mp hgo, ?_⟩
    exact hmay.imp id fun hdata => ⟨hpurge.mp hdata.1, hdata.2⟩
  · rfl

theorem files_removes (h : Accepted name args) (hstuck : ∀ q, m.stuck q = false) (hreload : m.reload = none)
    (hq : m.Removes euid ans args q) : m.files name euid ans args t q = none := by
  obtain ⟨flags, hflags, hconfirm, hpurge⟩ := inForce_flags euid h ans
  rw [Machine.files, hflags]
  dsimp only
  rw [if_pos (hconfirm.mpr hq.1)]
  exact script_removes hstuck hreload (hq.2.imp id fun hdata => ⟨hpurge.mpr hdata.1, hdata.2⟩)

end

/-- **What an uninstallation removes.** For every machine, every caller, answer and list of
options, and whatever fails: no file is touched but, after a yes, the programs' own and,
for root with `--purge`, the data; and when nothing fails all of these are gone. -/
theorem uninstall_removes (m : Machine) (name : String) (euid : Nat) (ans : String) (args : List String)
    (h : Accepted name args) (t : Tree) (q : AbsPath) :
    (¬ m.Removes euid ans args q → m.files name euid ans args t q = t q) ∧
      ((∀ q, m.stuck q = false) → m.reload = none → m.Removes euid ans args q →
        m.files name euid ans args t q = none) :=
  ⟨files_keeps h, files_removes h⟩

/-- A machine with a drive at `/mnt/SEER_EXT`, which no default of this script names. -/
def benchMachine : Machine where
  mountedAt q := q == path "/mnt/SEER_EXT"

/-- A file everywhere. -/
def benchTree : Tree := fun _ => some []

/-- Purged by root, the ring's captures are gone and those on the drive are not. -/
theorem uninstall_removes_purge :
    benchMachine.files "seer_uninstall.sh" 0 "" ["--purge", "--yes"] benchTree
        (path "/var/seer/pcap_ring/SEER-20260101-000000.pcap") = none ∧
      benchMachine.files "seer_uninstall.sh" 0 "" ["--purge", "--yes"] benchTree
        (path "/mnt/SEER_EXT/pcap/20260101/SEER-20260101-000000.pcap") = some [] := by
  have h : Accepted "seer_uninstall.sh" ["--purge", "--yes"] := accepted_iff.mpr (by decide)
  constructor
  · refine (uninstall_removes benchMachine _ 0 "" _ h benchTree _).2 (fun _ => rfl) rfl ?_
    refine ⟨.inl ⟨rfl, .inl (by simp)⟩, .inr ⟨⟨rfl, by simp⟩, .inr ⟨path "/var/seer", ?_, ?_⟩⟩⟩
    · decide +kernel
    · decide +kernel
  · refine (uninstall_removes benchMachine _ 0 "" _ h benchTree _).1 ?_
    rintro ⟨-, howned | ⟨-, ⟨c, hc, -, hmounted, -⟩ | ⟨root, hroot, hbelow⟩⟩⟩
    · exact absurd howned (by unfold Owned; decide +kernel)
    · have hcandidate : c = "/mnt/seer_external" := List.mem_singleton.mp hc
      subst hcandidate
      exact absurd hmounted (by decide +kernel)
    · revert root
      decide +kernel

/-! ## What is left of an installation -/

/-- The files `install.sh` puts in place. -/
inductive Item where
  | captureScript
  | captureUnit
  | mover
  | console
  | seer
  | zeekScript
  | zeekUnit
  | hotswap
  | hotswapUnit
  | moverUnit
  | moverTimer
  | waitLink
  | dropIn
  | verifier
  | netSetup
  | netSetupUnit
  deriving DecidableEq

namespace Item

/-- The file of the repository that has to be there for it; the last two are written
without one. -/
def repo : Item → Option String
  | captureScript => some "Automation/bin/seer-capture.sh"
  | captureUnit => some "Automation/systemd/seer-capture@.service"
  | mover => some "Automation/SEER/move_oldest.py"
  | console => some "Automation/bin/seer_console.py"
  | seer => some "Automation/bin/seer_console.py"
  | zeekScript => some "Automation/seer-zeek.sh"
  | zeekUnit => some "Automation/systemd/seer-zeek@.service"
  | hotswap => some "Automation/SEER/seer_hotswap.py"
  | hotswapUnit => some "Automation/systemd/seer-hotswap.service"
  | moverUnit => some "Automation/systemd/seer-move-oldest.service"
  | moverTimer => some "Automation/systemd/seer-move-oldest.timer"
  | waitLink => some "Automation/bin/seer-wait-link.sh"
  | dropIn => some "Automation/bin/seer-wait-link.sh"
  | verifier => some "Automation/bin/seer-verify-install.sh"
  | netSetup => none
  | netSetupUnit => none

/-- Where it is put. -/
def dest : Item → String
  | captureScript => "/usr/local/bin/seer-capture.sh"
  | captureUnit => "/etc/systemd/system/seer-capture@.service"
  | mover => "/usr/local/bin/seer-move-oldest.py"
  | console => "/usr/local/bin/seer-console"
  | seer => "/usr/local/bin/seer"
  | zeekScript => "/usr/local/bin/seer-zeek.sh"
  | zeekUnit => "/etc/systemd/system/seer-zeek@.service"
  | hotswap => "/usr/local/bin/seer_hotswap.py"
  | hotswapUnit => "/etc/systemd/system/seer-hotswap.service"
  | moverUnit => "/etc/systemd/system/seer-move-oldest.service"
  | moverTimer => "/etc/systemd/system/seer-move-oldest.timer"
  | waitLink => "/usr/local/bin/seer-wait-link.sh"
  | dropIn => "/etc/systemd/system/seer-capture@.service.d/wait-link.conf"
  | verifier => "/usr/local/bin/seer-verify-install.sh"
  | netSetup => "/usr/local/bin/seer-net-setup.sh"
  | netSetupUnit => "/etc/systemd/system/seer-net-setup@.service"

/-- Every file that is put in place. -/
def all : List Item :=
  [captureScript, captureUnit, mover, console, seer, zeekScript, zeekUnit, hotswap, hotswapUnit, moverUnit,
    moverTimer, waitLink, dropIn, verifier, netSetup, netSetupUnit]

end Item

/-- The file is put in place from a repository that has the files `has`. -/
def Installs (has : String → Bool) (q : AbsPath) : Prop :=
  ∃ i ∈ Item.all, (∀ file, i.repo = some file → has file = true) ∧ q = path i.dest

instance (has : String → Bool) (q : AbsPath) : Decidable (Installs has q) :=
  inferInstanceAs (Decidable (∃ i ∈ Item.all, (∀ file, i.repo = some file → has file = true) ∧ q = path i.dest))

/-- The files after an installation. -/
def install (has : String → Bool) (content : AbsPath → Bytes) (t : Tree) : Tree :=
  fun q => if Installs has q then some (content q) else t q

/-- The helper, its drop-in, and the network setup with its unit. -/
def leftovers : List AbsPath :=
  ["/usr/local/bin/seer-wait-link.sh", "/etc/systemd/system/seer-capture@.service.d/wait-link.conf",
    "/usr/local/bin/seer-net-setup.sh", "/etc/systemd/system/seer-net-setup@.service"].map path

theorem owned_or_leftover (i : Item) :
    path i.dest ∈ unitFiles ∨ path i.dest ∈ binaries ∨ path i.dest ∈ leftovers := by
  cases i <;> simp [unitFiles, binaries, leftovers, Item.dest]

theorem leftover_spared : ∀ q ∈ leftovers, ¬ Owned q ∧ "pcap".toList ∉ q ∧
    "MANIFEST.txt".toList ∉ q ∧ "TRANSFER.LOG".toList ∉ q ∧ ∀ root ∈ roots, below root q = false := by
  unfold Owned
  decide +kernel

/-- **What an uninstallation leaves of an installation.** Installed from any repository over
any files, and uninstalled with a yes and without a failure, purged or not: of what was
installed, the helper that waits for the link with its drop-in, and the network setup with
its unit, are still there, and nothing else is. -/
theorem uninstall_leaves_iff (m : Machine) (name : String) (euid : Nat) (ans : String) (args : List String)
    (h : Accepted name args) (hstuck : ∀ q, m.stuck q = false) (hreload : m.reload = none)
    (hgo : euid = 0 ∧ ("--yes" ∈ args ∨ "-y" ∈ args) ∨ ans = "y" ∨ ans = "Y") (has : String → Bool)
    (content : AbsPath → Bytes) (t : Tree) (q : AbsPath) (hq : Installs has q) :
    m.files name euid ans args (install has content t) q = some (content q) ↔ q ∈ leftovers := by
  constructor
  · intro hleft
    obtain ⟨i, -, -, rfl⟩ := hq
    rcases owned_or_leftover i with hunit | hbinary | hleftover
    · have hgone := files_removes h hstuck hreload (t := install has content t) ⟨hgo, .inl (.inr (.inl hunit))⟩
      cases hgone.symm.trans hleft
    · have hgone := files_removes h hstuck hreload (t := install has content t)
        ⟨hgo, .inl (.inr (.inr (.inl hbinary)))⟩
      cases hgone.symm.trans hleft
    · exact hleftover
  · intro hleftover
    obtain ⟨howned, hpcap, hmanifest, hlog, hroots⟩ := leftover_spared q hleftover
    rw [files_keeps h, install, if_pos hq]
    rintro ⟨-, hown | ⟨-, ⟨c, -, -, -, htree | hreceipt⟩ | ⟨root, hroot, hbelow⟩⟩⟩
    · exact howned hown
    · have hbelow := (Bool.and_eq_true_iff.mp (Bool.and_eq_true_iff.mp htree).1).1
      exact hpcap ((List.isPrefixOf_iff_prefix.mp hbelow).subset (by simp))
    · rcases List.mem_pair.mp hreceipt with rfl | rfl
      · exact hmanifest (by simp)
      · exact hlog (by simp)
    · cases (hroots root hroot).symm.trans hbelow

/-- Root, `--purge --yes`, from the repository as it is. -/
theorem uninstall_leaves_iff_purge :
    benchMachine.files "seer_uninstall.sh" 0 "" ["--purge", "--yes"]
        (install (fun _ => true) (fun _ => [0x23]) benchTree) (path "/usr/local/bin/seer-wait-link.sh") =
      some [0x23] := by
  refine (uninstall_leaves_iff benchMachine _ 0 "" _ (accepted_iff.mpr (by decide)) (fun _ => rfl) rfl
    (.inl ⟨rfl, .inl (by simp)⟩) (fun _ => true) (fun _ => [0x23]) benchTree _ ?_).mpr ?_
  · exact ⟨.waitLink, by decide, fun _ _ => rfl, rfl⟩
  · decide +kernel

end SeerSensor.Uninstall
