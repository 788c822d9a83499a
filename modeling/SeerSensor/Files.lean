/-
The files of the sensor and the calls the programs make on them.

A directory is the ring, the backlog, or `pcap/<date>` on a drive; a file has
its bytes and its modification time. Every call takes what the operating
system does to it this time: `none` when it works, an error text when it
raises. A copy has more ways to end than the others (`CopyFault`), and those
are what the pipeline's laws are about.
-/
import Mathlib.Data.List.AList
import Mathlib.Data.Rat.Defs
import SeerSensor.Lib.Hash
import SeerSensor.Lib.Raise

namespace SeerSensor

open Raise

abbrev Bytes := List UInt8

abbrev Name := String

/-- Seconds since the epoch, exact. -/
abbrev Time := ℚ

/-- A removable volume, whatever it is mounted at. -/
abbrev Drive := String

/-- `%Y%m%d`. -/
abbrev Date := String

/-- The directories files go through; a drive has one for each date. -/
inductive Dir where
  | ring
  | backlog
  | pcap (drive : Drive) (date : Date)
  deriving DecidableEq

/-- A file's directory and its name there. -/
structure Path where
  dir : Dir
  name : Name
  deriving DecidableEq

/-- The content, and the time of the last change. -/
structure File where
  bytes : Bytes
  mtime : Time
  deriving DecidableEq

/-- The regular files, at most one under a path. -/
structure FS where
  files : AList fun _ : Path => File

namespace FS

def empty : FS := ⟨∅⟩

def read (fs : FS) (p : Path) : Option File := fs.files.lookup p

def write (fs : FS) (p : Path) (f : File) : FS := ⟨fs.files.insert p f⟩

def remove (fs : FS) (p : Path) : FS := ⟨fs.files.erase p⟩

/-- The names in a directory, in no particular order. -/
def names (fs : FS) (d : Dir) : List Name := (fs.files.keys.filter fun p => p.dir = d).map (·.name)

/-- The bytes under each path. -/
def contents (fs : FS) (p : Path) : Option Bytes := (fs.read p).map File.bytes

/-- The bytes are in some file of the ring, the backlog or a drive. -/
def Stored (fs : FS) (b : Bytes) : Prop := ∃ p, fs.contents p = some b

end FS

/-- What does not change from call to call: the device of each directory, the
hash, and the texts of the errors that a missing file raises and a file copied
onto itself. -/
structure Env where
  dev : Dir → Nat
  sha : Hash.Incremental
  enoent : Path → String
  sameFile : Path → String

/-- How a `shutil.copy2` ends: it copies; it raises before the destination is
opened; it raises after writing `n` bytes, leaving them there with the time of
the write; or it returns having written other bytes. -/
inductive CopyFault where
  | none
  | refused (e : String)
  | torn (n : Nat) (now : Time) (e : String)
  | corrupt (b : Bytes)
  deriving DecidableEq

/-- The file at a path; a missing one raises. -/
def fetch (env : Env) (p : Path) : Prog FS File := fun fs =>
  match fs.read p with
  | some f => .ok f fs
  | none => .error (env.enoent p) fs

/-- `os.rename`: atomic, and without effect when it raises, as it always does from one
device to another. On one device it may raise as well: two mounts of one filesystem
share their `st_dev`. -/
def rename (env : Env) (fault : Option String) (src dst : Path) : Prog FS Unit := do
  let f ← fetch env src
  raiseIf (if env.dev src.dir = env.dev dst.dir then fault else some "[Errno 18] Invalid cross-device link")
  modify fun fs => (fs.remove src).write dst f

/-- `shutil.copy2`, which gives the copy the source's modification time last. It refuses to
copy a file onto itself. -/
def copy2 (env : Env) (fault : CopyFault) (src dst : Path) : Prog FS Unit := do
  let f ← fetch env src
  match if src = dst then .refused (env.sameFile src) else fault with
  | .none => modify fun fs => fs.write dst f
  | .refused e => raiseIf (some e)
  | .torn n now e => do
    modify fun fs => fs.write dst ⟨f.bytes.take n, now⟩
    raiseIf (some e)
  | .corrupt b => modify fun fs => fs.write dst ⟨b, f.mtime⟩

/-- `os.unlink`: without effect when it raises. -/
def unlink (env : Env) (fault : Option String) (p : Path) : Prog FS Unit := do
  let _ ← fetch env p
  raiseIf fault
  modify fun fs => fs.remove p

/-- `os.stat(p).st_dev` of a file. -/
def stDev (env : Env) (fault : Option String) (p : Path) : Prog FS Nat := do
  let _ ← fetch env p
  raiseIf fault
  pure (env.dev p.dir)

/-- `os.stat(d).st_dev` of a directory just made. -/
def stDevDir (env : Env) (fault : Option String) (d : Dir) : Prog FS Nat := do
  raiseIf fault
  pure (env.dev d)

/-- `compute_sha256` of a content: 8192 bytes a read, until an empty one. -/
def sha256Of (H : Hash.Incremental) (b : Bytes) : String :=
  H.hexdigest (H.feed H.init (Hash.readsOf 8192 b.length b))

/-- What `f.read(8192)` may return, time after time, on a file with these bytes. -/
abbrev FileReads (b : Bytes) := Hash.Reading 8192 b

/-- The same loop on reads of any size; `none` if it has not ended after `fuel` reads. -/
def sha256Reads (H : Hash.Incremental) (read : Nat → Bytes) (fuel : Nat) : Option String :=
  (H.drain read fuel 0 H.init).map H.hexdigest

/-- `compute_sha256`. -/
def computeSha256 (env : Env) (fault : Option String) (p : Path) : Prog FS String := do
  let f ← fetch env p
  raiseIf fault
  pure (sha256Of env.sha f.bytes)

/-- The ways the parts of a `shutil.move` may end. -/
structure MoveFaults where
  rename : Option String := none
  copy2 : CopyFault := .none
  unlink : Option String := none
  deriving DecidableEq

/-- `shutil.move`: a rename, and when that raises, for whatever reason, `copy2` then `unlink`. -/
def shutilMove (env : Env) (fl : MoveFaults) (src dst : Path) : Prog FS Unit := do
  try
    rename env fl.rename src dst
  catch _ =>
    copy2 env fl.copy2 src dst
    unlink env fl.unlink src

/-- The source and the destination directory are on one device. -/
def Env.sameDev (env : Env) (src : Path) (dstDir : Dir) : Prop := env.dev src.dir = env.dev dstDir

instance (env : Env) (src : Path) (dstDir : Dir) : Decidable (env.sameDev src dstDir) :=
  inferInstanceAs (Decidable (_ = _))

/-- The copy raises with the destination not even opened. -/
def CopyFault.isRefused : CopyFault → Bool
  | .refused _ => true
  | _ => false

/-- What a copy that returned has put at the destination. -/
inductive CopyFault.Writes : CopyFault → File → File → Prop
  | faithful {f : File} : Writes .none f f
  | other {f : File} (b : Bytes) : Writes (.corrupt b) f ⟨b, f.mtime⟩

/-- A copy that returns has written what it was given. -/
def CopyFault.Honest (fault : CopyFault) : Prop := ∀ b, fault ≠ .corrupt b

instance : DecidablePred CopyFault.Honest
  | .none => isTrue fun _ => nofun
  | .refused _ => isTrue fun _ => nofun
  | .torn _ _ _ => isTrue fun _ => nofun
  | .corrupt b => isFalse fun h => h b rfl

/-- The copy comes back, whatever it wrote. -/
def CopyFault.returns : CopyFault → Bool
  | .none | .corrupt _ => true
  | .refused _ | .torn _ _ _ => false

/-- The move is a rename; otherwise it is a copy. -/
def MoveFaults.renames (fl : MoveFaults) (same : Prop) : Prop := same ∧ fl.rename = none

instance (fl : MoveFaults) (same : Prop) [Decidable same] : Decidable (fl.renames same) :=
  inferInstanceAs (Decidable (_ ∧ _))

/-- The move raises before anything is written or moved. -/
def MoveFaults.stopsEarly (fl : MoveFaults) (same : Prop) : Prop :=
  ¬ fl.renames same ∧ fl.copy2.isRefused = true

/-- The schedule lets a `shutil.move` go through. -/
def MoveFaults.completes (fl : MoveFaults) (same : Prop) : Prop :=
  fl.renames same ∨ (fl.copy2.returns = true ∧ fl.unlink = none)

/-- How a `shutil.move` that reached the destination ends, `f` being the source file. -/
inductive MoveEnd (env : Env) (fl : MoveFaults) (src dst : Path) (f : File) (fs : FS) : FS → Prop
  | renamed : fl.renames (env.sameDev src dst.dir) → MoveEnd env fl src dst f fs ((fs.remove src).write dst f)
  | torn {n : Nat} {now : Time} {e : String} : ¬ fl.renames (env.sameDev src dst.dir) →
      fl.copy2 = .torn n now e → MoveEnd env fl src dst f fs (fs.write dst ⟨f.bytes.take n, now⟩)
  | copied {w : File} : ¬ fl.renames (env.sameDev src dst.dir) → fl.copy2.Writes f w → fl.unlink = none →
      MoveEnd env fl src dst f fs ((fs.write dst w).remove src)
  | undeleted {w : File} {e : String} : ¬ fl.renames (env.sameDev src dst.dir) → fl.copy2.Writes f w →
      fl.unlink = some e → MoveEnd env fl src dst f fs (fs.write dst w)

/-! ## Reading back what was written -/

theorem Path.ne_of_dir {d e : Dir} {n m : Name} (h : d ≠ e) : (⟨d, n⟩ : Path) ≠ ⟨e, m⟩ := by
  intro he
  exact h (congrArg Path.dir he)

namespace FS

variable {fs : FS} {p q : Path} {f : File} {b : Bytes}

@[simp] theorem read_write_self : (fs.write p f).read p = some f := AList.lookup_insert _

theorem read_write_ne (h : q ≠ p) : (fs.write p f).read q = fs.read q := AList.lookup_insert_ne h

@[simp] theorem read_remove_self : (fs.remove p).read p = none := AList.lookup_erase _ _

theorem read_remove_ne (h : q ≠ p) : (fs.remove p).read q = fs.read q := AList.lookup_erase_ne h

theorem write_write {g : File} : (fs.write p f).write p g = fs.write p g := by
  simp only [write, AList.insert_insert]

theorem contents_eq_some : fs.contents p = some b ↔ ∃ f, fs.read p = some f ∧ f.bytes = b := by
  simp [contents]

theorem contents_of_read (h : fs.read p = some f) : fs.contents p = some f.bytes := by
  simp [contents, h]

@[simp] theorem contents_write_self : (fs.write p f).contents p = some f.bytes := by simp [contents]

theorem contents_write_ne (h : q ≠ p) : (fs.write p f).contents q = fs.contents q := by
  simp [contents, read_write_ne h]

theorem contents_write : (fs.write p f).contents = Function.update fs.contents p (some f.bytes) := by
  funext q
  by_cases h : q = p
  · subst h; simp
  · simp [contents_write_ne h, h]

theorem contents_remove : (fs.remove p).contents = Function.update fs.contents p none := by
  funext q
  by_cases h : q = p
  · subst h; simp [contents]
  · simp [contents, read_remove_ne h, h]

theorem stored_iff_mem : fs.Stored b ↔ ∃ x ∈ fs.files.entries, x.2.bytes = b := by
  simp only [Stored, contents_eq_some, read]
  refine ⟨fun h => ?_, fun h => ?_⟩
  · obtain ⟨p, f, hf, hb⟩ := h
    exact ⟨⟨p, f⟩, AList.mem_lookup_iff.mp hf, hb⟩
  · obtain ⟨⟨p, f⟩, hf, hb⟩ := h
    exact ⟨p, f, AList.mem_lookup_iff.mpr hf, hb⟩

instance : Decidable (fs.Stored b) := decidable_of_iff _ stored_iff_mem.symm

theorem mem_names {d : Dir} {n : Name} : n ∈ fs.names d ↔ ∃ f, fs.read ⟨d, n⟩ = some f := by
  simp only [names, List.mem_map, List.mem_filter, decide_eq_true_eq, read, ← Option.isSome_iff_exists,
    AList.lookup_isSome, AList.mem_keys]
  refine ⟨fun h => ?_, fun hk => ⟨⟨d, n⟩, ⟨hk, rfl⟩, rfl⟩⟩
  obtain ⟨⟨d', n'⟩, ⟨hk, rfl⟩, rfl⟩ := h
  exact hk

theorem names_nodup (fs : FS) (d : Dir) : (fs.names d).Nodup := by
  refine List.Nodup.map_on ?_ (fs.files.keys_nodup.filter _)
  intro p hp q hq hname
  simp only [List.mem_filter, decide_eq_true_eq] at hp hq
  have hdir : p.dir = q.dir := hp.2.trans hq.2.symm
  cases p
  cases q
  rw [Path.mk.injEq]
  exact ⟨hdir, hname⟩

/-- A directory's listing, from what is there to read. -/
theorem names_perm {d : Dir} {l : List Name} (hl : l.Nodup)
    (h : ∀ n, (∃ f, fs.read ⟨d, n⟩ = some f) ↔ n ∈ l) :
    (fs.names d).Perm l := by
  rw [List.perm_ext_iff_of_nodup (names_nodup fs d) hl]
  intro n
  rw [mem_names, h]

end FS

/-! ## A bench to run the model on -/

/-- SHA-256 of the short contents the runs below use; any other is spelled out. -/
def benchHex : Bytes → String
  | [] => "e3b0c44298fc1c149afbf4c8996fb92427ae41e4649b934ca495991b7852b855"
  | [0x61] => "ca978112ca1bbdcafac231b39a23dc4da786eff8147c4e72b9807785afee48bb"
  | [0x62] => "3e23e8160039594a33894f6564e1b1348bbd7a0088d42c4acb73eeaed59c009d"
  | [0x61, 0x62] => "fb8e20fc2e4c3f248c60c39bd652f3c1347298bb977b8b4d5903b85055620603"
  | b => String.ofList (b.map fun x => Char.ofNat x.toNat)

def benchSha : Hash.Incremental where
  State := Bytes
  init := []
  update := fun h b => h ++ b
  hexdigest := benchHex
  update_nil := List.append_nil
  update_append := List.append_assoc

/-- Ring, backlog and drives on three devices. -/
def benchEnv : Env where
  dev := fun d => match d with
    | .ring => 0
    | .backlog => 1
    | .pcap _ _ => 2
  sha := benchSha
  enoent := fun p => "[Errno 2] No such file or directory: '" ++ p.name ++ "'"
  sameFile := fun p => "'" ++ p.name ++ "' and '" ++ p.name ++ "' are the same file"

end SeerSensor
