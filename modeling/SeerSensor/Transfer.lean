/-
`transfer_file`: one file from the backlog to a dated directory of a drive.

On one device it is a `shutil.move`: a rename, or the copy that falls in for a rename
that raises, which nobody compares. Across two it copies, hashes both ends and removes
the source only when the hashes agree; everything is inside one `try`, so a call never
raises and a failure leaves whatever the calls before it did. `TransferEnd` lists the
ways a call that got as far as the destination may end, and every later result is a
case analysis of it.
-/
import SeerSensor.Files

namespace SeerSensor

open Raise

/-- What each call inside `transfer_file` does this time. -/
structure TransferFaults where
  makedirs : Option String := none
  statSrc : Option String := none
  statDst : Option String := none
  move : MoveFaults := {}
  copy2 : CopyFault := .none
  sync : Option String := none
  hashSrc : Option String := none
  hashDst : Option String := none
  unlinkDst : Option String := none
  unlinkSrc : Option String := none
  deriving DecidableEq

/-- `(success, sha256, error_msg)`. -/
structure TransferResult where
  success : Bool
  sha256 : Option String
  error : Option String
  deriving DecidableEq

/-- `s[:n]`. -/
def sliceTo (n : Nat) (s : String) : String := String.ofList (s.toList.take n)

/-- The text of the error, with the beginnings of both hashes. -/
def mismatchMsg (srcSha dstSha : String) : String :=
  "Checksum mismatch: " ++ sliceTo 8 srcSha ++ " != " ++ sliceTo 8 dstSha

/-- "Same filesystem: atomic rename", when the rename works. -/
def transferWithin (env : Env) (fl : TransferFaults) (src dst : Path) (verify : Bool) :
    Prog FS TransferResult := do
  shutilMove env fl.move src dst
  if verify then
    let sha ← computeSha256 env fl.hashDst dst
    pure ⟨true, some sha, none⟩
  else
    pure ⟨true, none, none⟩

/-- Cross-filesystem: copy, verify, delete. -/
def transferAcross (env : Env) (fl : TransferFaults) (src dst : Path) (verify : Bool) :
    Prog FS TransferResult := do
  copy2 env fl.copy2 src dst
  raiseIf fl.sync
  if verify then
    let srcSha ← computeSha256 env fl.hashSrc src
    let dstSha ← computeSha256 env fl.hashDst dst
    if srcSha ≠ dstSha then
      unlink env fl.unlinkDst dst
      pure ⟨false, none, some (mismatchMsg srcSha dstSha)⟩
    else
      unlink env fl.unlinkSrc src
      pure ⟨true, some srcSha, none⟩
  else
    unlink env fl.unlinkSrc src
    pure ⟨true, none, none⟩

/-- The body of the `try`. -/
def transferBody (env : Env) (fl : TransferFaults) (src : Path) (dstDir : Dir) (verify : Bool) :
    Prog FS TransferResult := do
  raiseIf fl.makedirs
  let dst : Path := ⟨dstDir, src.name⟩
  let srcDev ← stDev env fl.statSrc src
  let dstDev ← stDevDir env fl.statDst dstDir
  if srcDev = dstDev then
    transferWithin env fl src dst verify
  else
    transferAcross env fl src dst verify

/-- `transfer_file`: whatever is raised becomes the error of its result. -/
def transferFile (env : Env) (fl : TransferFaults) (src : Path) (dstDir : Dir) (verify : Bool)
    (fs : FS) :
    TransferResult × FS :=
  attempt (transferBody env fl src dstDir verify) (fun e => ⟨false, none, some e⟩) fs

/-- The schedule makes the call raise before anything is written or moved. -/
def TransferFaults.stopsEarly (fl : TransferFaults) (same : Prop) : Prop :=
  fl.makedirs ≠ none ∨ fl.statSrc ≠ none ∨ fl.statDst ≠ none ∨
    (same ∧ fl.move.stopsEarly same) ∨ (¬ same ∧ fl.copy2.isRefused = true)

/-- No copy of the call returns with other bytes written than it was given. -/
structure TransferFaults.Honest (fl : TransferFaults) : Prop where
  copy2 : fl.copy2.Honest
  move : fl.move.copy2.Honest

instance : DecidablePred TransferFaults.Honest := fun _ =>
  decidable_of_iff (_ ∧ _) ⟨fun h => ⟨h.1, h.2⟩, fun h => ⟨h.copy2, h.move⟩⟩

/-- The copy of `b` leaves bytes with `b`'s hash at the destination. -/
def CopyFault.Delivers (fault : CopyFault) (H : Hash.Incremental) (b : Bytes) : Prop :=
  fault = .none ∨ ∃ b', fault = .corrupt b' ∧ H.digest b = H.digest b'

/-- The schedule lets a verifying call on the bytes `b` succeed. -/
def TransferFaults.succeeds (fl : TransferFaults) (H : Hash.Incremental) (same : Prop) (b : Bytes) :
    Prop :=
  ¬ fl.stopsEarly same ∧ fl.hashDst = none ∧ (same ∧ fl.move.completes same ∨
    ¬ same ∧ fl.sync = none ∧ fl.hashSrc = none ∧ fl.unlinkSrc = none ∧ fl.copy2.Delivers H b)

/-- How a verifying call that reached the destination `dst` ends, `f` being
the source file. -/
inductive TransferEnd (env : Env) (fl : TransferFaults) (src dst : Path) (f : File) (fs : FS) :
    TransferResult → FS → Prop
  | renamed : fl.move.renames (env.sameDev src dst.dir) → fl.hashDst = none →
      TransferEnd env fl src dst f fs ⟨true, some (env.sha.digest f.bytes), none⟩
        ((fs.remove src).write dst f)
  /-- The move is done when the hash raises: the call reports a failure. -/
  | renamedUnhashed {e : String} : fl.move.renames (env.sameDev src dst.dir) → fl.hashDst = some e →
      TransferEnd env fl src dst f fs ⟨false, none, some e⟩ ((fs.remove src).write dst f)
  /-- The rename raised and the move copied: the hash is that of the copy, whatever it is. -/
  | fellBack {w : File} : env.sameDev src dst.dir → fl.move.rename ≠ none → fl.move.copy2.Writes f w →
      fl.move.unlink = none → fl.hashDst = none →
      TransferEnd env fl src dst f fs ⟨true, some (env.sha.digest w.bytes), none⟩ ((fs.write dst w).remove src)
  | fellBackUnhashed {w : File} {e : String} : env.sameDev src dst.dir → fl.move.rename ≠ none →
      fl.move.copy2.Writes f w → fl.move.unlink = none → fl.hashDst = some e →
      TransferEnd env fl src dst f fs ⟨false, none, some e⟩ ((fs.write dst w).remove src)
  | fellBackTorn {n : Nat} {now : Time} {e : String} : env.sameDev src dst.dir → fl.move.rename ≠ none →
      fl.move.copy2 = .torn n now e →
      TransferEnd env fl src dst f fs ⟨false, none, some e⟩ (fs.write dst ⟨f.bytes.take n, now⟩)
  | fellBackUndeleted {w : File} {e : String} : env.sameDev src dst.dir → fl.move.rename ≠ none →
      fl.move.copy2.Writes f w → fl.move.unlink = some e →
      TransferEnd env fl src dst f fs ⟨false, none, some e⟩ (fs.write dst w)
  | torn {n : Nat} {now : Time} {e : String} : ¬ env.sameDev src dst.dir → fl.copy2 = .torn n now e →
      TransferEnd env fl src dst f fs ⟨false, none, some e⟩ (fs.write dst ⟨f.bytes.take n, now⟩)
  /-- The sync or a hash raised: nobody compared the two. -/
  | unverified {w : File} {e : String} : ¬ env.sameDev src dst.dir → fl.copy2.Writes f w →
      (fl.sync = some e ∨ fl.sync = none ∧ (fl.hashSrc = some e ∨ fl.hashSrc = none ∧
        fl.hashDst = some e)) →
      TransferEnd env fl src dst f fs ⟨false, none, some e⟩ (fs.write dst w)
  | mismatch {w : File} : ¬ env.sameDev src dst.dir → fl.copy2.Writes f w →
      fl.sync = none → fl.hashSrc = none → fl.hashDst = none →
      env.sha.digest f.bytes ≠ env.sha.digest w.bytes → fl.unlinkDst = none →
      TransferEnd env fl src dst f fs
        ⟨false, none, some (mismatchMsg (env.sha.digest f.bytes) (env.sha.digest w.bytes))⟩
        ((fs.write dst w).remove dst)
  | mismatchKept {w : File} {e : String} : ¬ env.sameDev src dst.dir → fl.copy2.Writes f w →
      fl.sync = none → fl.hashSrc = none → fl.hashDst = none →
      env.sha.digest f.bytes ≠ env.sha.digest w.bytes → fl.unlinkDst = some e →
      TransferEnd env fl src dst f fs ⟨false, none, some e⟩ (fs.write dst w)
  | moved {w : File} : ¬ env.sameDev src dst.dir → fl.copy2.Writes f w →
      fl.sync = none → fl.hashSrc = none → fl.hashDst = none →
      env.sha.digest f.bytes = env.sha.digest w.bytes → fl.unlinkSrc = none →
      TransferEnd env fl src dst f fs ⟨true, some (env.sha.digest f.bytes), none⟩
        ((fs.write dst w).remove src)
  /-- Verified, and then the source could not be removed. -/
  | undeleted {w : File} {e : String} : ¬ env.sameDev src dst.dir → fl.copy2.Writes f w →
      fl.sync = none → fl.hashSrc = none → fl.hashDst = none →
      env.sha.digest f.bytes = env.sha.digest w.bytes → fl.unlinkSrc = some e →
      TransferEnd env fl src dst f fs ⟨false, none, some e⟩ (fs.write dst w)

end SeerSensor
