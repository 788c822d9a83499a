/-
The console's mount key: what `act_toggle_mount` reads of `lsblk`, and the device
it picks and mounts.

`lsblk -r` separates columns by one space and leaves empty ones empty, and
`split` loses those: a row with five fields has a mount point or a filesystem,
and the console takes it for a filesystem when the name is one of nine. Any
other filesystem of an unmounted device becomes its mount point, and the device
is passed over as already mounted.

The choice is among rows of disks, each judged by itself. That a disk is in use
is written in the rows of its partitions, which are not looked at; the one
protection is the name `sda`. What the choice is right for is therefore said of the
table: which disks are on offer, which of two goes first, and that none that is in
use goes ahead of those that are free.
-/
import Mathlib.Data.Prod.Lex
import SeerSensor.Lib.Best
import SeerSensor.Lib.PyStr
import SeerSensor.ConsoleDrive

namespace SeerSensor.Console

open PyStr (Without isSpace)

/-- The filesystems the parse knows. -/
def filesystems : List String := ["ext4", "ext3", "ext2", "xfs", "btrfs", "ntfs", "vfat", "exfat", "fat32"]

/-- A line as parsed. -/
structure Device where
  devName : String
  size : Nat
  devType : String
  removable : String
  mountpoint : String
  fstype : String
  deriving DecidableEq

/-- `int(parts[1]) if parts[1].isdigit() else 0`; of the digits that `isdigit` admits
and `int` does not, `lsblk -b` prints none. -/
def parseSize (s : String) : Nat := if PyStr.isdigit s then ((PyStr.int s).getD 0).toNat else 0

/-- Mount point and filesystem, from the fields after the fourth. -/
def parseRest : List String → String × String
  | [] => ("", "")
  | p :: more => if p ∈ filesystems then ("", p) else (p, more.headD "")

/-- One turn of the loop, up to the filters; `none` is a line with too few fields. -/
def parseLine (line : String) : Option Device :=
  match PyStr.split line with
  | devName :: size :: devType :: removable :: rest =>
    some ⟨devName, parseSize size, devType, removable, (parseRest rest).1, (parseRest rest).2⟩
  | _ => none

/-- `s.startswith(pre)`. -/
def startsWith (pre s : String) : Bool := pre.toList.isPrefixOf s.toList

/-- `(priority, size, dev_name, dev_type)`. -/
structure Candidate where
  priority : Nat
  size : Nat
  devName : String
  devType : String
  deriving DecidableEq

/-- sdb* > removable > has filesystem > large. -/
def priority (d : Device) : Nat :=
  if startsWith "sdb" d.devName then 10
  else if d.removable = "1" then 5
  else if d.fstype ≠ "" ∧ d.size > 1000000000 then 3
  else if d.size > 1000000000 then 1
  else 0

/-- The filters and the priority ladder. -/
def candidateOf (d : Device) : Option Candidate :=
  -- skip if already mounted
  if d.mountpoint ≠ "" then none
  -- skip system disk (sda)
  else if startsWith "sda" d.devName then none
  -- only consider disks
  else if d.devType ≠ "disk" then none
  else if priority d > 0 then some ⟨priority d, d.size, d.devName, d.devType⟩
  else none

/-- The candidates that the output has, in its order. -/
def candidates (stdout : String) : List Candidate :=
  (PyStr.splitlines stdout).filterMap fun line => (parseLine line).bind candidateOf

/-- The sort key. -/
def Candidate.key (c : Candidate) : Nat ×ₗ Nat := toLex (c.priority, c.size)

/-- `candidates[0][2]` after sorting, highest first; `none` is "No suitable drive found". -/
def bestDevice (stdout : String) : Option String :=
  (((candidates stdout).insertionSort fun a b => b.key ≤ a.key).head?).map (·.devName)

/-! ## The key -/

/-- What `subprocess.run` gives back. -/
structure Result where
  returncode : Int
  stdout : String
  stderr : String

/-- Where the key is pressed. No command is issued twice in one call. -/
structure Host where
  cfg : Config
  ismount : String → Bool
  pathExists : String → Bool
  run : List String → Result
  /-- The `OSError` of `os.makedirs`, if it raises one. -/
  makedirs : String → Option String

/-- `needle in hay.lower()`, the needles being ASCII. -/
def inLower (needle hay : String) : Bool :=
  decide (needle.toList <:+: (hay.toList.map Char.toLower))

/-- The size column of `df -h`, when it printed one. -/
def sizeInfo (df : Result) : String :=
  if df.returncode = 0 then
    match ((PyStr.strip df.stdout).toList.splitOn '\n').map String.ofList with
    | _ :: line :: _ =>
      match PyStr.split line with
      | _ :: total :: _ => " (" ++ total ++ " total)"
      | _ => ""
    | _ => ""
  else
    ""

/-- The hint for a failed mount. -/
def mountError (device errorMsg : String) : String :=
  if inLower "already mounted" errorMsg then "✗ " ++ device ++ " is already mounted elsewhere"
  else if inLower "special device" errorMsg then "✗ Device " ++ device ++ " not found or not accessible"
  else if inLower "wrong fs type" errorMsg then
    "✗ Filesystem type not recognized. Try: sudo blkid " ++ device
  else "✗ Mount failed: " ++ (if errorMsg = "" then "unknown error" else errorMsg)

/-- The commands issued, in order, and the message; an error is an exception. -/
abbrev Outcome := List (List String) × Except String String

/-- The target is mounted: unmount it, lazily if it is busy. -/
def unmount (host : Host) (target : String) : Outcome :=
  let umount := ["sudo", "umount", target]
  let umountLazy := ["sudo", "umount", "-l", target]
  let result := host.run umount
  let failed := "✗ Failed to unmount " ++ target ++ ": " ++ PyStr.strip result.stderr
  if result.returncode = 0 then
    ([["sync"], umount], .ok ("✓ Unmounted " ++ target))
  else if inLower "busy" result.stderr then
    if (host.run umountLazy).returncode = 0 then
      ([["sync"], umount, umountLazy],
        .ok ("✓ Unmounted " ++ target ++ " (lazy - will complete when files close)"))
    else
      ([["sync"], umount, umountLazy], .ok failed)
  else
    ([["sync"], umount], .ok failed)

/-- Mounting the device chosen. -/
def mountDevice (host : Host) (target device : String) : Outcome :=
  let blkid := ["sudo", "blkid", device]
  let mount := ["sudo", "mount", device, target]
  let df := ["df", "-h", target]
  match host.makedirs target with
  | some err => ([], .error err)
  | none =>
    if host.pathExists device = false then
      ([], .ok ("✗ Device " ++ device ++ " not found"))
    else if (host.run blkid).returncode ≠ 0 then
      ([blkid], .ok ("✗ No filesystem detected on " ++ device ++ ". Use: sudo mkfs.ext4 " ++ device))
    else if (host.run mount).returncode = 0 then
      ([blkid, mount, ["sudo", "chown", "seer:seer", target], ["sudo", "chmod", "755", target], df],
        .ok ("✓ Mounted " ++ device ++ " at " ++ target ++ sizeInfo (host.run df)))
    else
      ([blkid, mount], .ok (mountError device (PyStr.strip (host.run mount).stderr)))

/-- The command whose output is read. -/
def lsblkCommand : List String := ["lsblk", "-nrbo", "NAME,SIZE,TYPE,RM,MOUNTPOINT,FSTYPE"]

/-- `target`. -/
def Host.target (host : Host) : String := host.cfg.consoleCandidates.headD "/mnt/seer_external"

/-- `act_toggle_mount`: the commands it ran, and its message. -/
def actToggleMount (host : Host) : Outcome :=
  if host.ismount host.target then
    unmount host host.target
  else
    match bestDevice (host.run lsblkCommand).stdout with
    | none =>
      let debug := ["lsblk", "-o", "NAME,SIZE,TYPE,RM,FSTYPE,MOUNTPOINT"]
      ([lsblkCommand, debug],
        .ok ("✗ No suitable drive found\n\nAvailable devices:\n" ++ (host.run debug).stdout))
    | some best =>
      let mounted := mountDevice host host.target ("/dev/" ++ best)
      (lsblkCommand :: mounted.1, mounted.2)

/-- The device is selected: `blkid` is the first command that names it. -/
def Selects (host : Host) (name : String) : Prop :=
  ["sudo", "blkid", "/dev/" ++ name] ∈ (actToggleMount host).1

section
variable {host : Host} {target chosen device dir name : String}

theorem not_mem_unmount {cmd : List String} (hcmd : cmd.head? = some "sudo") (hsub : cmd[1]? ≠ some "umount") :
    cmd ∉ (unmount host target).1 := by
  intro h
  unfold unmount at h
  dsimp only at h
  split_ifs at h <;> simp only [List.mem_cons, List.not_mem_nil, or_false] at h
  all_goals rcases h with rfl | rfl | rfl <;> simp at hcmd hsub

theorem mount_mem_mountDevice (h : ["sudo", "mount", device, dir] ∈ (mountDevice host target chosen).1) :
    device = chosen ∧ dir = target ∧ ["sudo", "blkid", device] ∈ (mountDevice host target chosen).1 := by
  unfold mountDevice at h ⊢
  cases hmk : host.makedirs target with
  | some err => simp [hmk] at h
  | none =>
    simp only [hmk] at h ⊢
    split_ifs at h ⊢ with hexists hblkid hmount
    · simp at h
    · simp at h
    · simp_all
    · simp_all

theorem blkid_mem_mountDevice : ["sudo", "blkid", device] ∈ (mountDevice host target chosen).1 ↔
    device = chosen ∧ host.makedirs target = none ∧ host.pathExists chosen = true := by
  unfold mountDevice
  cases hmk : host.makedirs target with
  | some err => simp
  | none =>
    cases hexists : host.pathExists chosen with
    | false => simp
    | true =>
      simp only [Bool.true_eq_false, if_false]
      split_ifs <;> simp

/-- **When a device is selected.** Nothing is mounted at the target, the device is the
best of what `lsblk` prints, the target can be made and the device is there. -/
theorem selects_iff : Selects host name ↔ host.ismount host.target = false ∧
    bestDevice (host.run lsblkCommand).stdout = some name ∧ host.makedirs host.target = none ∧
      host.pathExists ("/dev/" ++ name) = true := by
  unfold Selects actToggleMount
  cases hm : host.ismount host.target with
  | true =>
    simp only [if_true, Bool.true_eq_false, false_and, iff_false]
    exact not_mem_unmount rfl (by simp)
  | false =>
    simp only [Bool.false_eq_true, if_false, true_and]
    cases hbest : bestDevice (host.run lsblkCommand).stdout with
    | none => simp [lsblkCommand]
    | some best =>
      have hlsblk : ["sudo", "blkid", "/dev/" ++ name] ≠ lsblkCommand := by simp [lsblkCommand]
      simp only [List.mem_cons, hlsblk, false_or, blkid_mem_mountDevice, String.append_right_inj,
        Option.some.injEq]
      constructor
      · rintro ⟨rfl, hmade, hthere⟩
        exact ⟨rfl, hmade, hthere⟩
      · rintro ⟨rfl, hmade, hthere⟩
        exact ⟨rfl, hmade, hthere⟩

theorem selects_of_mount (h : ["sudo", "mount", "/dev/" ++ name, dir] ∈ (actToggleMount host).1) :
    Selects host name ∧ dir = host.target := by
  unfold Selects
  unfold actToggleMount at h ⊢
  cases hm : host.ismount host.target with
  | true =>
    rw [if_pos hm] at h
    exact absurd h (not_mem_unmount rfl (by simp))
  | false =>
    rw [if_neg (by simp [hm])] at h ⊢
    cases hbest : bestDevice (host.run lsblkCommand).stdout with
    | none =>
      rw [hbest] at h
      simp [lsblkCommand] at h
    | some best =>
      simp only [hbest, List.mem_cons] at h ⊢
      rcases h with h | h
      · simp [lsblkCommand] at h
      · obtain ⟨-, hdir, hblkid⟩ := mount_mem_mountDevice h
        exact ⟨.inr hblkid, hdir⟩

end

/-! ## The table -/

/-- A row of `lsblk -nrbo NAME,SIZE,TYPE,RM,MOUNTPOINT,FSTYPE`. -/
structure Row where
  name : String
  size : String
  type : String
  rm : String
  mountpoint : String
  fstype : String
  solid : ∀ s ∈ [name, size, type, rm, mountpoint, fstype], Without isSpace s
  filled : ∀ s ∈ [name, size, type, rm], s ≠ ""
  mounted : mountpoint = "" ∨ startsWith "/" mountpoint = true ∨ mountpoint = "[SWAP]"

/-- As `lsblk -r` prints it. -/
def Row.render (row : Row) : String :=
  PyStr.join ' ' [row.name, row.size, row.type, row.rm, row.mountpoint, row.fstype]

/-- A disk with its partitions below it. -/
structure Disk where
  row : Row
  parts : List Row
  disk : row.type = "disk"
  notDisks : ∀ p ∈ parts, p.type ≠ "disk"

/-- The disk's own row, and its partitions'. -/
def Disk.rows (d : Disk) : List Row := d.row :: d.parts

/-- The output of `lsblk`. -/
def lsblk (table : List Disk) : String := PyStr.unlines ((table.flatMap Disk.rows).map Row.render)

/-- Something is mounted on the disk or on one of its partitions. -/
def InUse (table : List Disk) (name : String) : Prop :=
  ∃ d ∈ table, d.row.name = name ∧ ∃ r ∈ d.rows, r.mountpoint ≠ ""

/-- A disk above 1 GB that carries a filesystem and has nothing mounted on it. -/
def Wanted (table : List Disk) (name : String) : Prop :=
  (∃ d ∈ table, d.row.name = name ∧ 1000000000 < parseSize d.row.size ∧ d.row.fstype ≠ "") ∧
    ¬ InUse table name

/-! ## One row -/

/-- What the parse makes of a row. -/
def Row.device (row : Row) : Device :=
  let shifted := row.mountpoint = "" ∧ row.fstype ≠ "" ∧ row.fstype ∉ filesystems
  { devName := row.name
    size := parseSize row.size
    devType := row.type
    removable := row.rm
    mountpoint := if shifted then row.fstype else row.mountpoint
    fstype := if shifted then "" else row.fstype }

section
variable {row : Row}

theorem Row.mountpoint_not_mem (row : Row) : row.mountpoint ∉ filesystems := by
  intro hmem
  have hall : ∀ s ∈ filesystems, s ≠ "" ∧ startsWith "/" s = false ∧ s ≠ "[SWAP]" := by decide
  obtain ⟨hempty, hslash, hswap⟩ := hall _ hmem
  rcases row.mounted with h | h | h
  · exact hempty h
  · rw [hslash] at h; cases h
  · exact hswap h

theorem Row.split_render (row : Row) : PyStr.split row.render =
    row.name :: row.size :: row.type :: row.rm :: [row.mountpoint, row.fstype].filter (· ≠ "") := by
  have hname : row.name ≠ "" := row.filled _ (by simp)
  have hsize : row.size ≠ "" := row.filled _ (by simp)
  have htype : row.type ≠ "" := row.filled _ (by simp)
  have hrm : row.rm ≠ "" := row.filled _ (by simp)
  rw [Row.render, PyStr.split_columns (by simp) row.solid]
  simp [List.filter_cons, hname, hsize, htype, hrm]

theorem Row.parseRest_eq (row : Row) :
    parseRest ([row.mountpoint, row.fstype].filter (· ≠ "")) = (row.device.mountpoint, row.device.fstype) := by
  have hmount := row.mountpoint_not_mem
  by_cases hm : row.mountpoint = ""
  · by_cases hf : row.fstype = ""
    · simp [hm, hf, parseRest, Row.device]
    · by_cases hknown : row.fstype ∈ filesystems
      · simp [hm, hf, hknown, parseRest, Row.device]
      · simp [hm, hf, hknown, parseRest, Row.device]
  · by_cases hf : row.fstype = ""
    · simp [hm, hf, hmount, parseRest, Row.device]
    · simp [hm, hf, hmount, parseRest, Row.device]

theorem Row.parseLine_render (row : Row) : parseLine row.render = some row.device := by
  unfold parseLine
  rw [row.split_render]
  simp only [row.parseRest_eq]
  rfl

theorem parseSize_toString (n : Nat) : parseSize (toString n) = n := by
  have hdigit : PyStr.isdigit (toString n) = true := by
    simp only [PyStr.isdigit, Bool.and_eq_true, decide_eq_true_eq, List.all_eq_true]
    refine ⟨fun hempty => ?_, fun c hc => ?_⟩
    · obtain ⟨c, cs, hcs, -⟩ := PyStr.toString_head n
      rw [hempty] at hcs
      cases hcs
    · rw [PyStr.decimal_of_isDigit (PyStr.isDigit_of_mem_toString hc)]
      rfl
  rw [parseSize, if_pos hdigit, PyStr.int_toString]
  rfl

end

/-- The parse of the row is the row, and the row is passed over as mounted only if it is. -/
def Row.Recovered (row : Row) : Prop :=
  ∃ d, parseLine row.render = some d ∧ d.devName = row.name ∧ toString d.size = row.size ∧
    d.devType = row.type ∧ d.removable = row.rm ∧ d.mountpoint = row.mountpoint ∧ d.fstype = row.fstype ∧
    (d.mountpoint ≠ "" → row.mountpoint ≠ "")

/-- **When parsing a row of `lsblk` recovers it.** For every row, with each of the
last two columns empty or not, exactly when its size is a number written out and
it is mounted, or has no filesystem, or has one of the nine. -/
theorem lsblk_row_recovered_iff (row : Row) : row.Recovered ↔
    (∃ n : Nat, row.size = toString n) ∧
      (row.mountpoint ≠ "" ∨ row.fstype = "" ∨ row.fstype ∈ filesystems) := by
  unfold Row.Recovered
  simp only [row.parseLine_render, Option.some.injEq, exists_eq_left']
  refine ⟨fun h => ?_, fun h => ?_⟩
  · obtain ⟨-, hsize, -, -, hmount, -, -⟩ := h
    refine ⟨⟨_, hsize.symm⟩, ?_⟩
    by_contra hnot
    simp only [not_or, not_not] at hnot
    rw [Row.device, if_pos hnot, hnot.1] at hmount
    exact hnot.2.1 hmount
  · obtain ⟨⟨n, hn⟩, hcols⟩ := h
    have hnot : ¬ (row.mountpoint = "" ∧ row.fstype ≠ "" ∧ row.fstype ∉ filesystems) := by
      rintro ⟨hm, hf, hknown⟩
      rcases hcols with h | h | h
      · exact h hm
      · exact hf h
      · exact hknown h
    simp only [Row.device, if_neg hnot]
    refine ⟨trivial, ?_, trivial, trivial, trivial, trivial, id⟩
    rw [hn, parseSize_toString]

/-- An unmounted disk with a filesystem that is not one of the nine. -/
def benchF2fs : Row where
  name := "sdb"
  size := "64000000000"
  type := "disk"
  rm := "1"
  mountpoint := ""
  fstype := "f2fs"
  solid := by decide +kernel
  filled := by simp
  mounted := .inl rfl

/-- Its filesystem is taken for its mount point. -/
theorem lsblk_row_shifted : benchF2fs.render = "sdb 64000000000 disk 1  f2fs" ∧
    (parseLine benchF2fs.render).map (fun d => (d.mountpoint, d.fstype)) = some ("f2fs", "") ∧
    ¬ benchF2fs.Recovered := by
  refine ⟨by decide +kernel, by decide +kernel, ?_⟩
  rintro ⟨d, hd, -, -, -, -, hmount, -, -⟩
  have hparsed : (parseLine benchF2fs.render).map (·.mountpoint) = some "f2fs" := by decide +kernel
  rw [hd, Option.map_some, hmount] at hparsed
  revert hparsed
  decide

/-! ## The choice -/

section
variable {d : Device} {c : Candidate} {disk : Disk} {table : List Disk} {name : String}

theorem candidateOf_eq_some : candidateOf d = some c ↔
    d.mountpoint = "" ∧ startsWith "sda" d.devName = false ∧ d.devType = "disk" ∧ 0 < priority d ∧
      c = ⟨priority d, d.size, d.devName, d.devType⟩ := by
  unfold candidateOf
  by_cases hm : d.mountpoint = ""
  · by_cases hsda : startsWith "sda" d.devName = true
    · simp [hm, hsda]
    · by_cases ht : d.devType = "disk"
      · by_cases hp : 0 < priority d
        · simp [hm, hsda, ht, hp, eq_comm]
        · simp [hm, hsda, ht, hp]
      · simp [hm, hsda, ht]
  · simp [hm]

theorem priority_pos : 0 < priority d ↔
    startsWith "sdb" d.devName = true ∨ d.removable = "1" ∨ 1000000000 < d.size := by
  unfold priority
  split_ifs with hsdb hrm hfs hsize
  · exact iff_of_true (by decide) (.inl hsdb)
  · exact iff_of_true (by decide) (.inr (.inl hrm))
  · exact iff_of_true (by decide) (.inr (.inr hfs.2))
  · exact iff_of_true (by decide) (.inr (.inr hsize))
  · refine iff_of_false (by decide) ?_
    rintro (h | h | h)
    · exact hsdb h
    · exact hrm h
    · exact hsize h

/-- A disk the console would mount, judged by its own row: not mounted, with one of the
nine filesystems or none, not called `sda`, and called `sdb`, removable or above 1 GB. -/
def Disk.Offered (d : Disk) : Prop :=
  d.row.mountpoint = "" ∧ (d.row.fstype = "" ∨ d.row.fstype ∈ filesystems) ∧
    startsWith "sda" d.row.name = false ∧
    (startsWith "sdb" d.row.name = true ∨ d.row.rm = "1" ∨ 1000000000 < parseSize d.row.size)

/-- The order of the disks on offer: those called `sdb`, then the removable ones, then
those with a filesystem, then the others. -/
def Disk.standing (d : Disk) : Nat :=
  if startsWith "sdb" d.row.name then 3 else if d.row.rm = "1" then 2 else if d.row.fstype ≠ "" then 1 else 0

/-- The second disk is preferred: it stands higher, or as high and is larger. -/
def Disk.Below (d e : Disk) : Prop :=
  d.standing < e.standing ∨ d.standing = e.standing ∧ parseSize d.row.size < parseSize e.row.size

/-- The code's sort key of the disks on offer. -/
def Disk.rank (d : Disk) : Option (Nat ×ₗ Nat) := (candidateOf d.row.device).map Candidate.key

/-- Seen as unmounted: nothing in either column, or a filesystem that is known. -/
theorem Row.device_mountpoint_eq_empty (row : Row) : row.device.mountpoint = "" ↔
    row.mountpoint = "" ∧ (row.fstype = "" ∨ row.fstype ∈ filesystems) := by
  simp only [Row.device]
  split_ifs with hshift
  · obtain ⟨-, hf, hknown⟩ := hshift
    exact iff_of_false hf fun h => h.2.elim hf hknown
  · refine ⟨fun hm => ⟨hm, ?_⟩, fun h => h.1⟩
    by_contra hnot
    rw [not_or] at hnot
    exact hshift ⟨hm, hnot⟩

theorem Disk.Offered.priority_eq (h : disk.Offered) : priority disk.row.device =
    if startsWith "sdb" disk.row.name then 10 else if disk.row.rm = "1" then 5
    else if disk.row.fstype ≠ "" then 3 else 1 := by
  obtain ⟨hm, hf, -, hbig⟩ := h
  have hshift : ¬ (disk.row.mountpoint = "" ∧ disk.row.fstype ≠ "" ∧ disk.row.fstype ∉ filesystems) :=
    fun h => hf.elim h.2.1 h.2.2
  simp only [priority, Row.device, if_neg hshift]
  by_cases hsdb : startsWith "sdb" disk.row.name = true
  · simp only [if_pos hsdb]
  by_cases hrm : disk.row.rm = "1"
  · simp only [if_neg hsdb, if_pos hrm]
  -- neither, so it is on offer for its size
  have hsize : parseSize disk.row.size > 1000000000 := (hbig.resolve_left hsdb).resolve_left hrm
  simp only [if_neg hsdb, if_neg hrm, and_iff_left hsize, if_pos hsize]

theorem Disk.candidateOf_eq_some (disk : Disk) : candidateOf disk.row.device = some c ↔
    disk.Offered ∧ c = ⟨priority disk.row.device, parseSize disk.row.size, disk.row.name, "disk"⟩ := by
  have hname : disk.row.device.devName = disk.row.name := rfl
  have hsize : disk.row.device.size = parseSize disk.row.size := rfl
  have htype : disk.row.device.devType = "disk" := disk.disk
  have hrm : disk.row.device.removable = disk.row.rm := rfl
  rw [Console.candidateOf_eq_some, Row.device_mountpoint_eq_empty, priority_pos, hname, hsize, htype, hrm,
    Disk.Offered]
  constructor
  · rintro ⟨⟨hm, hf⟩, hsda, -, hbig, rfl⟩
    exact ⟨⟨hm, hf, hsda, hbig⟩, rfl⟩
  · rintro ⟨⟨hm, hf, hsda, hbig⟩, rfl⟩
    exact ⟨⟨hm, hf⟩, hsda, rfl, hbig, rfl⟩

theorem Disk.rank_eq_some (disk : Disk) {k : Nat ×ₗ Nat} : disk.rank = some k ↔
    disk.Offered ∧ toLex (priority disk.row.device, parseSize disk.row.size) = k := by
  unfold Disk.rank
  rw [Option.map_eq_some_iff]
  simp only [disk.candidateOf_eq_some]
  constructor
  · rintro ⟨c, ⟨ho, rfl⟩, rfl⟩
    exact ⟨ho, rfl⟩
  · rintro ⟨ho, rfl⟩
    exact ⟨_, ⟨ho, rfl⟩, rfl⟩

/-- The code's key orders the disks on offer as the table does. -/
theorem Disk.Offered.key_lt_iff {d e : Disk} (hd : d.Offered) (he : e.Offered) :
    toLex (priority d.row.device, parseSize d.row.size) < toLex (priority e.row.device, parseSize e.row.size) ↔
      d.Below e := by
  rw [Prod.Lex.toLex_lt_toLex, hd.priority_eq, he.priority_eq, Disk.Below, Disk.standing, Disk.standing]
  split_ifs <;> simp

theorem Disk.filterMap_rows (disk : Disk) :
    disk.rows.filterMap (fun r => candidateOf r.device) = (candidateOf disk.row.device).toList := by
  have hparts : disk.parts.filterMap (fun r => candidateOf r.device) = [] := by
    rw [List.filterMap_eq_nil_iff]
    intro r hr
    rw [Option.eq_none_iff_forall_ne_some]
    intro c hc
    obtain ⟨-, -, htype, -⟩ := Console.candidateOf_eq_some.mp hc
    exact disk.notDisks r hr htype
  rw [Disk.rows, List.filterMap_cons, hparts]
  cases candidateOf disk.row.device <;> rfl

theorem Row.render_without_break (row : Row) : Without PyStr.isLineBreak row.render :=
  Without.join (by decide) fun s hs => (row.solid s hs).lineBreak

theorem splitlines_lsblk (table : List Disk) :
    PyStr.splitlines (lsblk table) = (table.flatMap Disk.rows).map Row.render := by
  refine PyStr.splitlines_unlines fun l hl => ?_
  obtain ⟨r, -, rfl⟩ := List.mem_map.mp hl
  exact r.render_without_break

/-- One candidate at most for each disk, in the order of the table. -/
theorem candidates_lsblk (table : List Disk) :
    candidates (lsblk table) = table.filterMap fun d => candidateOf d.row.device := by
  unfold candidates
  rw [splitlines_lsblk, List.filterMap_map]
  have hrow : (fun line => (parseLine line).bind candidateOf) ∘ Row.render = fun r => candidateOf r.device := by
    funext r
    simp only [Function.comp_apply, r.parseLine_render, Option.bind_some]
  rw [hrow]
  induction table with
  | nil => rfl
  | cons disk table ih =>
    rw [List.flatMap_cons, List.filterMap_append, ih, disk.filterMap_rows, List.filterMap_cons]
    cases candidateOf disk.row.device <;> rfl

/-- The device chosen is the first of the disks with the highest rank. -/
theorem bestDevice_lsblk :
    bestDevice (lsblk table) = some name ↔ ∃ disk, Best.Leads Disk.rank table disk ∧ disk.row.name = name := by
  unfold bestDevice
  simp only [candidates_lsblk, Option.map_eq_some_iff,
    Best.head?_sorted_iff (fun _ _ => Iff.rfl) fun d : Disk => (rfl : d.rank = _)]
  refine ⟨fun h => ?_, fun h => ?_⟩
  · obtain ⟨c, ⟨disk, hlead, hc⟩, rfl⟩ := h
    obtain ⟨-, rfl⟩ := disk.candidateOf_eq_some.mp hc
    exact ⟨disk, hlead, rfl⟩
  · obtain ⟨disk, hlead, rfl⟩ := h
    obtain ⟨k, hk, -⟩ := hlead.ranked
    have ho : disk.Offered := (disk.rank_eq_some.mp hk).1
    exact ⟨_, ⟨disk, hlead, disk.candidateOf_eq_some.mpr ⟨ho, rfl⟩⟩, rfl⟩

end

/-- The key is pressed to mount something: nothing is at the target, `lsblk` prints the
table, the target can be made, and the disks have their device nodes. -/
structure Pressed (host : Host) (table : List Disk) : Prop where
  unmounted : host.ismount host.target = false
  printed : (host.run lsblkCommand).stdout = lsblk table
  made : host.makedirs host.target = none
  present : ∀ d ∈ table, host.pathExists ("/dev/" ++ d.row.name) = true

/-- What is selected is not in use, and is a disk with a filesystem if there is one to
select. -/
structure SafeChoice (host : Host) (table : List Disk) : Prop where
  free : ∀ name, Selects host name → ¬ InUse table name
  wanted : (∃ w, Wanted table w) → ∃ name, Selects host name ∧ Wanted table name

/-- Every disk on offer whose name is not `good` is overtaken by one whose name is: by one
above it in the table to which it is not preferred, or by a preferred one below it. -/
def Yields (table : List Disk) (good : String → Prop) : Prop :=
  ∀ before d after, table = before ++ d :: after → d.Offered → ¬ good d.row.name →
    (∃ e ∈ before, e.Offered ∧ good e.row.name ∧ ¬ e.Below d) ∨
      ∃ e ∈ after, e.Offered ∧ good e.row.name ∧ d.Below e

section
variable {host : Host} {table : List Disk} {name : String} {good : String → Prop}

theorem selects_iff_leads (h : Pressed host table) :
    Selects host name ↔ ∃ disk, Best.Leads Disk.rank table disk ∧ disk.row.name = name := by
  rw [selects_iff, h.printed, bestDevice_lsblk]
  refine ⟨fun hsel => hsel.2.1, fun hlead => ⟨h.unmounted, hlead, h.made, ?_⟩⟩
  obtain ⟨disk, hlead, rfl⟩ := hlead
  exact h.present disk hlead.mem

theorem leads_good_iff : (∀ disk, Best.Leads Disk.rank table disk → good disk.row.name) ↔
    Yields table good := by
  rw [Best.leads_forall_iff]
  refine forall_congr' fun before => forall_congr' fun d => forall_congr' fun after => ?_
  constructor
  · intro h hl hd hbad
    rcases h _ hl (d.rank_eq_some.mpr ⟨hd, rfl⟩) hbad with
      ⟨e, hmem, hgood, j, hj, hle⟩ | ⟨e, hmem, hgood, j, hj, hlt⟩
    · obtain ⟨he, rfl⟩ := e.rank_eq_some.mp hj
      exact .inl ⟨e, hmem, he, hgood, fun hbelow => absurd ((he.key_lt_iff hd).mpr hbelow) (not_lt.mpr hle)⟩
    · obtain ⟨he, rfl⟩ := e.rank_eq_some.mp hj
      exact .inr ⟨e, hmem, he, hgood, (hd.key_lt_iff he).mp hlt⟩
  · intro h i hl hi hbad
    obtain ⟨hd, rfl⟩ := d.rank_eq_some.mp hi
    rcases h hl hd hbad with ⟨e, hmem, he, hgood, hnot⟩ | ⟨e, hmem, he, hgood, hbelow⟩
    · exact .inl ⟨e, hmem, hgood, _, e.rank_eq_some.mpr ⟨he, rfl⟩,
        not_lt.mp fun hlt => hnot ((he.key_lt_iff hd).mp hlt)⟩
    · exact .inr ⟨e, hmem, hgood, _, e.rank_eq_some.mpr ⟨he, rfl⟩, (hd.key_lt_iff he).mpr hbelow⟩

/-- Something leads and is good exactly when something good is on offer and every other
yields to such a one. -/
theorem exists_leads_good_iff : (∃ disk, Best.Leads Disk.rank table disk ∧ good disk.row.name) ↔
    (∃ d ∈ table, d.Offered ∧ good d.row.name) ∧ Yields table good := by
  constructor
  · rintro ⟨disk, hlead, hgood⟩
    obtain ⟨k, hk, -⟩ := hlead.ranked
    refine ⟨⟨disk, hlead.mem, (disk.rank_eq_some.mp hk).1, hgood⟩, leads_good_iff.mp fun other hother => ?_⟩
    rw [hother.unique hlead]
    exact hgood
  · rintro ⟨⟨d, hmem, hd, -⟩, hyields⟩
    have hranked : d.rank ≠ none := by simp [d.rank_eq_some.mpr ⟨hd, rfl⟩]
    obtain ⟨disk, hlead⟩ := Best.exists_leads ⟨d, hmem, hranked⟩
    exact ⟨disk, hlead, leads_good_iff.mpr hyields disk hlead⟩

end

/-- **When the mount key picks a disk that is free.** With the key pressed to mount
something: if the table has no free disk above 1 GB with a filesystem, exactly when every
disk on offer that is in use, itself or in a partition, is overtaken by one on offer that
is not; and if it has one, exactly when such a disk is on offer and every other disk on
offer is overtaken by such a one. -/
theorem mount_key_safe_iff (host : Host) (table : List Disk) (hpressed : Pressed host table) :
    SafeChoice host table ↔
      ((¬ ∃ w, Wanted table w) → Yields table fun name => ¬ InUse table name) ∧
      ((∃ w, Wanted table w) →
        (∃ d ∈ table, d.Offered ∧ Wanted table d.row.name) ∧ Yields table (Wanted table)) := by
  have hfree : (∀ name, Selects host name → ¬ InUse table name) ↔
      Yields table fun name => ¬ InUse table name := by
    rw [← leads_good_iff]
    simp only [selects_iff_leads hpressed]
    exact ⟨fun h disk hlead => h _ ⟨disk, hlead, rfl⟩, fun h name ⟨disk, hlead, hname⟩ => hname ▸ h disk hlead⟩
  have hwanted : (∃ name, Selects host name ∧ Wanted table name) ↔
      (∃ d ∈ table, d.Offered ∧ Wanted table d.row.name) ∧ Yields table (Wanted table) := by
    rw [← exists_leads_good_iff]
    simp only [selects_iff_leads hpressed]
    constructor
    · rintro ⟨name, ⟨disk, hlead, rfl⟩, hw⟩
      exact ⟨disk, hlead, hw⟩
    · rintro ⟨disk, hlead, hw⟩
      exact ⟨_, ⟨disk, hlead, rfl⟩, hw⟩
  by_cases hw : ∃ w, Wanted table w
  · simp only [hw, not_true_eq_false, false_imp_iff, true_and, true_imp_iff]
    rw [← hwanted]
    refine ⟨fun h => h.wanted hw, fun h => ⟨fun name hname => ?_, fun _ => h⟩⟩
    -- one device is selected, and a wanted one is not in use
    obtain ⟨other, hother, hwant⟩ := h
    obtain ⟨disk, hlead, rfl⟩ := (selects_iff_leads hpressed).mp hname
    obtain ⟨disk', hlead', rfl⟩ := (selects_iff_leads hpressed).mp hother
    rw [hlead.unique hlead']
    exact hwant.2
  · simp only [hw, not_false_eq_true, true_imp_iff, false_imp_iff, and_true]
    rw [← hfree]
    exact ⟨fun h => h.free, fun h => ⟨h, fun h' => absurd h' hw⟩⟩

/-- The root filesystem of a machine that boots from NVMe. -/
def benchRoot : Row where
  name := "nvme0n1p1"
  size := "512000000000"
  type := "part"
  rm := "0"
  mountpoint := "/"
  fstype := "ext4"
  solid := by decide +kernel
  filled := by simp
  mounted := .inr (.inl (by decide +kernel))

/-- Its disk. -/
def benchNvme : Disk where
  row :=
    { name := "nvme0n1"
      size := "512110190592"
      type := "disk"
      rm := "0"
      mountpoint := ""
      fstype := ""
      solid := by decide +kernel
      filled := by simp
      mounted := .inl rfl }
  parts := [benchRoot]
  disk := rfl
  notDisks := by decide +kernel

/-- An export drive that came up as `sda`. -/
def benchSda : Disk where
  row :=
    { name := "sda"
      size := "64000000000"
      type := "disk"
      rm := "0"
      mountpoint := ""
      fstype := "ext4"
      solid := by decide +kernel
      filled := by simp
      mounted := .inl rfl }
  parts := []
  disk := rfl
  notDisks := by decide +kernel

/-- A stick beside the system disk. -/
def benchStick : Disk where
  row :=
    { name := "sdb"
      size := "64000000000"
      type := "disk"
      rm := "1"
      mountpoint := ""
      fstype := "ext4"
      solid := by decide +kernel
      filled := by simp
      mounted := .inl rfl }
  parts := []
  disk := rfl
  notDisks := by decide +kernel

/-- A machine with these disks, every command of which works. -/
def benchHost (table : List Disk) : Host where
  cfg := {}
  ismount := fun _ => false
  pathExists := fun _ => true
  run := fun cmd => if cmd = lsblkCommand then ⟨0, lsblk table, ""⟩ else ⟨0, "", ""⟩
  makedirs := fun _ => none

theorem benchHost_pressed (table : List Disk) : Pressed (benchHost table) table where
  unmounted := rfl
  printed := by simp [benchHost]
  made := rfl
  present _ _ := rfl

/-- On the one machine the key mounts the system disk; on the other it finds no drive,
the only one having the name of a system disk. -/
theorem mount_key_picks_system_disk :
    ["sudo", "mount", "/dev/nvme0n1", "/mnt/seer_external"] ∈ (actToggleMount (benchHost [benchNvme])).1 ∧
    InUse [benchNvme] "nvme0n1" ∧ ¬ SafeChoice (benchHost [benchNvme]) [benchNvme] ∧
    Wanted [benchSda] "sda" ∧ (∀ name, ¬ Selects (benchHost [benchSda]) name) ∧
      ¬ SafeChoice (benchHost [benchSda]) [benchSda] := by
  have hmounts : ["sudo", "mount", "/dev/nvme0n1", "/mnt/seer_external"] ∈
      (actToggleMount (benchHost [benchNvme])).1 := by decide +kernel
  have hpicked : Selects (benchHost [benchNvme]) "nvme0n1" :=
    (selects_of_mount (show ["sudo", "mount", "/dev/" ++ "nvme0n1", _] ∈ _ from hmounts)).1
  have huse : InUse [benchNvme] "nvme0n1" :=
    ⟨benchNvme, by simp, rfl, benchRoot, by simp [Disk.rows, benchNvme], by decide⟩
  have hnone : ∀ name, ¬ Selects (benchHost [benchSda]) name := by
    intro name h
    have hbest : bestDevice (lsblk [benchSda]) = none := by decide +kernel
    rw [selects_iff, (benchHost_pressed [benchSda]).printed, hbest] at h
    cases h.2.1
  have hwanted : Wanted [benchSda] "sda" := by
    refine ⟨⟨benchSda, by simp, rfl, by decide +kernel, by decide⟩, ?_⟩
    rintro ⟨d, hd, -, r, hr, hm⟩
    obtain rfl := List.mem_singleton.mp hd
    obtain rfl := List.mem_singleton.mp hr
    exact hm rfl
  refine ⟨hmounts, huse, fun h => h.free _ hpicked huse, hwanted, hnone, fun h => ?_⟩
  obtain ⟨name, hsel, -⟩ := h.wanted ⟨_, hwanted⟩
  exact hnone name hsel

/-- With the stick in, the key does not pick the system disk. -/
theorem mount_key_safe_stick :
    SafeChoice (benchHost [benchNvme, benchStick]) [benchNvme, benchStick] := by
  have hstick : Wanted [benchNvme, benchStick] "sdb" := by
    refine ⟨⟨benchStick, by simp, rfl, by decide +kernel, by decide⟩, ?_⟩
    rintro ⟨d, hd, hname, r, hr, hm⟩
    rcases List.mem_cons.mp hd with rfl | hd
    · exact absurd hname (by decide)
    · obtain rfl := List.mem_singleton.mp hd
      obtain rfl := List.mem_singleton.mp hr
      exact hm rfl
  have hoffered : benchStick.Offered := ⟨rfl, .inr (by decide), by decide +kernel, .inl (by decide +kernel)⟩
  refine (mount_key_safe_iff _ _ (benchHost_pressed _)).mpr
    ⟨fun h => absurd ⟨_, hstick⟩ h, fun _ => ⟨⟨benchStick, by simp, hoffered, hstick⟩, ?_⟩⟩
  intro before d after hl _ hbad
  cases before with
  | nil =>
    obtain ⟨rfl, rfl⟩ := List.cons.inj hl
    exact .inr ⟨benchStick, by simp, hoffered, hstick, .inl (by decide +kernel)⟩
  | cons e before =>
    have hd : d ∈ [benchStick] := by
      rw [(List.cons.inj hl).2]
      simp
    obtain rfl := List.mem_singleton.mp hd
    exact absurd hstick hbad

end SeerSensor.Console
