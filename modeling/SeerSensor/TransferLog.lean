/-
What `TRANSFER.LOG` says of each attempt: its result and its size.

The result is recovered from the text of the error. A transfer has many ways
to raise, all of them with texts that name files, and one of them comes after
the hashes were seen to differ: the removal of the bad copy. So a file whose
name has `mismatch` in it turns an I/O error into a VERIFY_FAIL, and a bad
copy that cannot be removed turns a VERIFY_FAIL into an I/O error. The size is
read from the source after the transfer, so a file that went is logged as
empty.

`Reported` lists what a call answers by what the schedule has in store for it,
and both results are case analyses of how a call ends.
-/
import SeerSensor.ExportSpec

namespace SeerSensor

open Raise

/-- `"mismatch" in e`. -/
def hasMismatch (e : String) : Prop := "mismatch".toList <:+: e.toList

instance : DecidablePred hasMismatch := fun e =>
    inferInstanceAs (Decidable ("mismatch".toList <:+: e.toList))

/-- `transfer_file` as far as the comparison: the two hashes, where it gets there. -/
def comparedHashes (env : Env) (fl : TransferFaults) (src : Path) (dstDir : Dir) :
    Prog FS (Option (String × String)) := do
  raiseIf fl.makedirs
  let dst : Path := ⟨dstDir, src.name⟩
  let srcDev ← stDev env fl.statSrc src
  let dstDev ← stDevDir env fl.statDst dstDir
  if srcDev = dstDev then
    pure none
  else
    copy2 env fl.copy2 src dst
    raiseIf fl.sync
    let srcSha ← computeSha256 env fl.hashSrc src
    let dstSha ← computeSha256 env fl.hashDst dst
    pure (some (srcSha, dstSha))

/-- The hashes of source and destination were both computed and differed. -/
def HashesDiffer (env : Env) (fl : TransferFaults) (src : Path) (dstDir : Dir) (fs : FS) : Prop :=
  ∃ a b fs', comparedHashes env fl src dstDir fs = .ok (some (a, b)) fs' ∧ a ≠ b

/-- The result of an attempt is the one the log is documented to have. -/
structure Classified (env : Env) (fl : TransferFaults) (src : Path) (dstDir : Dir) (fs : FS)
    (result : LogResult) : Prop where
  ok : result = .ok ↔ (transferFile env fl src dstDir true fs).1.success = true
  verifyFail : result = .verifyFail ↔ HashesDiffer env fl src dstDir fs
  ioError : result = .ioError ↔ (transferFile env fl src dstDir true fs).1.success = false ∧
    ¬ HashesDiffer env fl src dstDir fs

/-- What a copy raises. -/
def CopyFault.raised : CopyFault → Option String
  | .refused e => some e
  | .torn _ _ e => some e
  | _ => Option.none

/-- The bytes a copy of `b` that returns has written. -/
def CopyFault.bytes (b : Bytes) : CopyFault → Bytes
  | .corrupt b' => b'
  | _ => b

/-- What a `shutil.move` raises: never what the rename raised. -/
def MoveFaults.raised (fl : MoveFaults) (same : Prop) [Decidable same] : Option String :=
  if fl.renames same then none else fl.copy2.raised <|> fl.unlink

/-- The first raise of a verifying call, up to the comparison. -/
def TransferFaults.raised (fl : TransferFaults) (same : Prop) [Decidable same] : Option String :=
  fl.makedirs <|> fl.statSrc <|> fl.statDst <|>
    if same then fl.move.raised same <|> fl.hashDst
    else fl.copy2.raised <|> fl.sync <|> fl.hashSrc <|> fl.hashDst

/-- What is raised has `mismatch` in its text exactly where the hashes differed:
never before the comparison, not when the source cannot be removed, and always
when the bad copy cannot. -/
def TransferFaults.Telling (fl : TransferFaults) (H : Hash.Incremental) (same : Prop) [Decidable same]
    (b : Bytes) : Prop :=
  match fl.raised same with
  | some e => ¬ hasMismatch e
  | none => ¬ same →
      if H.digest b = H.digest (fl.copy2.bytes b) then ∀ e, fl.unlinkSrc = some e → ¬ hasMismatch e
      else ∀ e, fl.unlinkDst = some e → hasMismatch e

/-- What a verifying call on the bytes `b` answers. -/
inductive Reported (fl : TransferFaults) (H : Hash.Incremental) (same : Prop) [Decidable same]
    (b : Bytes) : TransferResult → Prop
  | raised {e : String} : fl.raised same = some e → Reported fl H same b ⟨false, none, some e⟩
  | within {sha : String} : fl.raised same = none → same → Reported fl H same b ⟨true, some sha, none⟩
  | across {sha : String} : fl.raised same = none → ¬ same → H.digest b = H.digest (fl.copy2.bytes b) →
      fl.unlinkSrc = none → Reported fl H same b ⟨true, some sha, none⟩
  | undeleted {e : String} : fl.raised same = none → ¬ same →
      H.digest b = H.digest (fl.copy2.bytes b) → fl.unlinkSrc = some e →
      Reported fl H same b ⟨false, none, some e⟩
  | discarded {x y : String} : fl.raised same = none → ¬ same →
      H.digest b ≠ H.digest (fl.copy2.bytes b) → fl.unlinkDst = none →
      Reported fl H same b ⟨false, none, some (mismatchMsg x y)⟩
  | undiscarded {e : String} : fl.raised same = none → ¬ same →
      H.digest b ≠ H.digest (fl.copy2.bytes b) → fl.unlinkDst = some e →
      Reported fl H same b ⟨false, none, some e⟩

/-! ## What is raised -/

section
variable {env : Env} {fl : TransferFaults} {src dst : Path} {dstDir : Dir} {f w : File} {fs fs' : FS}
  {e : String} {r : TransferResult}

theorem TransferFaults.raised_none {same : Prop} [Decidable same] : fl.raised same = none ↔
    fl.makedirs = none ∧ fl.statSrc = none ∧ fl.statDst = none ∧
      if same then fl.move.raised same = none ∧ fl.hashDst = none
      else fl.copy2.raised = none ∧ fl.sync = none ∧ fl.hashSrc = none ∧ fl.hashDst = none := by
  unfold TransferFaults.raised
  split <;> simp

theorem fetchThen_raises {α : Type} {p : Path} (act : File → Prog FS α) (hp : fs.read p = some f) :
    (do let f ← fetch env p; raiseIf (some e); act f) fs = .error e fs := by
  rw [bind_of_ok (fetch_ok.mpr ⟨hp, rfl⟩)]
  rfl

theorem copy2_raises (env : Env) (hne : src ≠ dst) {fault : CopyFault} (hsrc : fs.read src = some f)
    (h : fault.raised = some e) : ∃ fs', copy2 env fault src dst fs = .error e fs' := by
  unfold copy2
  rw [bind_of_ok (fetch_ok.mpr ⟨hsrc, rfl⟩), if_neg hne]
  cases fault with
  | none | corrupt => cases h
  | refused | torn => cases h; exact ⟨_, rfl⟩

theorem copy2_returns (env : Env) (hne : src ≠ dst) {fault : CopyFault} (hsrc : fs.read src = some f)
    (h : fault.raised = none) :
    copy2 env fault src dst fs = .ok () (fs.write dst ⟨fault.bytes f.bytes, f.mtime⟩) := by
  unfold copy2
  rw [bind_of_ok (fetch_ok.mpr ⟨hsrc, rfl⟩), if_neg hne]
  cases fault with
  | none | corrupt => rfl
  | refused | torn => cases h

theorem shutilMove_raises (env : Env) {fl : MoveFaults} (hne : src ≠ dst) (hsrc : fs.read src = some f)
    (h : fl.raised (env.sameDev src dst.dir) = some e) :
    ∃ fs', shutilMove env fl src dst fs = .error e fs' := by
  unfold MoveFaults.raised at h
  by_cases hmove : fl.renames (env.sameDev src dst.dir)
  · rw [if_pos hmove] at h
    cases h
  rw [if_neg hmove] at h
  rw [shutilMove_copies hmove]
  rcases (Option.orElse_eq_some _ _ _).mp h with hcp | ⟨hcp, hul⟩
  · obtain ⟨fs', hraise⟩ := copy2_raises env hne hsrc hcp
    exact ⟨fs', bind_of_error hraise⟩
  · rw [bind_of_ok (copy2_returns env hne hsrc hcp), hul]
    exact ⟨_, fetchThen_raises _ ((FS.read_write_ne hne).trans hsrc)⟩

theorem shutilMove_returns (env : Env) {fl : MoveFaults} (hne : src ≠ dst) (hsrc : fs.read src = some f)
    (h : fl.raised (env.sameDev src dst.dir) = none) :
    ∃ fs' g, shutilMove env fl src dst fs = .ok () fs' ∧ fs'.read dst = some g := by
  unfold MoveFaults.raised at h
  by_cases hmove : fl.renames (env.sameDev src dst.dir)
  · exact ⟨_, f, shutilMove_renames hmove hsrc, FS.read_write_self⟩
  rw [if_neg hmove] at h
  obtain ⟨hcp, hul⟩ : fl.copy2.raised = none ∧ fl.unlink = none := by simpa using h
  rw [shutilMove_copies hmove, bind_of_ok (copy2_returns env hne hsrc hcp), hul]
  refine ⟨_, ⟨fl.copy2.bytes f.bytes, f.mtime⟩, unlink_ok.mpr ⟨rfl, ⟨f, (FS.read_write_ne hne).trans hsrc⟩, rfl⟩, ?_⟩
  rw [FS.read_remove_ne hne.symm, FS.read_write_self]

theorem transferWithin_raises (hne : src ≠ dst) (hsrc : fs.read src = some f)
    (h : (fl.move.raised (env.sameDev src dst.dir) <|> fl.hashDst) = some e) :
    ∃ fs', transferWithin env fl src dst true fs = .error e fs' := by
  simp only [transferWithin, if_true]
  rcases (Option.orElse_eq_some _ _ _).mp h with hmv | ⟨hmv, hhash⟩
  · obtain ⟨fs', hraise⟩ := shutilMove_raises env hne hsrc hmv
    exact ⟨fs', bind_of_error hraise⟩
  · obtain ⟨fs', g, hmoved, hg⟩ := shutilMove_returns env hne hsrc hmv
    rw [bind_of_ok hmoved, hhash]
    exact ⟨_, bind_of_error (fetchThen_raises _ hg)⟩

theorem transferAcross_raises (hne : src ≠ dst) (hsrc : fs.read src = some f)
    (h : (fl.copy2.raised <|> fl.sync <|> fl.hashSrc <|> fl.hashDst) = some e) :
    ∃ fs', transferAcross env fl src dst true fs = .error e fs' := by
  simp only [transferAcross, if_true]
  rcases (Option.orElse_eq_some _ _ _).mp h with hcp | ⟨hcp, h⟩
  · obtain ⟨fs', hraise⟩ := copy2_raises env hne hsrc hcp
    exact ⟨fs', bind_of_error hraise⟩
  rw [bind_of_ok (copy2_returns env hne hsrc hcp)]
  have hkept : (fs.write dst ⟨fl.copy2.bytes f.bytes, f.mtime⟩).read src = some f := by
    rw [FS.read_write_ne hne, hsrc]
  rcases (Option.orElse_eq_some _ _ _).mp h with hsync | ⟨hsync, h⟩
  · rw [hsync]
    exact ⟨_, rfl⟩
  rw [hsync, bind_of_ok raiseIf_none]
  rcases (Option.orElse_eq_some _ _ _).mp h with hhs | ⟨hhs, hhd⟩
  · rw [hhs]
    exact ⟨_, bind_of_error (fetchThen_raises _ hkept)⟩
  · rw [hhs, bind_of_ok (computeSha256_ok.mpr ⟨rfl, f, hkept, rfl, rfl⟩), hhd]
    exact ⟨_, bind_of_error (fetchThen_raises _ FS.read_write_self)⟩

/-- The first raise of the schedule is what the call raises. -/
theorem transferBody_raises (hne : src ≠ ⟨dstDir, src.name⟩) (hsrc : fs.read src = some f)
    (h : fl.raised (env.sameDev src dstDir) = some e) :
    ∃ fs', transferBody env fl src dstDir true fs = .error e fs' := by
  unfold TransferFaults.raised at h
  rcases (Option.orElse_eq_some _ _ _).mp h with hmk | ⟨hmk, h⟩
  · simp only [transferBody, hmk]
    exact ⟨fs, rfl⟩
  rcases (Option.orElse_eq_some _ _ _).mp h with hss | ⟨hss, h⟩
  · simp only [transferBody, hmk, hss]
    rw [bind_of_ok raiseIf_none]
    exact ⟨fs, bind_of_error (fetchThen_raises _ hsrc)⟩
  rcases (Option.orElse_eq_some _ _ _).mp h with hsd | ⟨hsd, h⟩
  · have hstat : stDev env none src fs = .ok (env.dev src.dir) fs := fetchThen_ok.mpr ⟨rfl, f, hsrc, rfl⟩
    simp only [transferBody, hmk, hss, hsd]
    rw [bind_of_ok raiseIf_none, bind_of_ok hstat]
    exact ⟨fs, rfl⟩
  rw [transferBody_branch env dstDir true hmk hss hsd hsrc]
  by_cases hdev : env.sameDev src dstDir
  · rw [if_pos hdev]
    exact transferWithin_raises hne hsrc (by simpa [hdev] using h)
  · rw [if_neg hdev]
    exact transferAcross_raises hne hsrc (by simpa [hdev] using h)

theorem CopyFault.Writes.bytes {fault : CopyFault} (h : fault.Writes f w) :
    fault.raised = Option.none ∧ w.bytes = fault.bytes f.bytes := by
  cases h <;> exact ⟨rfl, rfl⟩

/-- A call that raises nothing before the removals reaches the destination. -/
theorem not_stopsEarly_of_raised {same : Prop} [Decidable same] (h : fl.raised same = none) :
    ¬ fl.stopsEarly same := by
  obtain ⟨hmk, hss, hsd, hrest⟩ := TransferFaults.raised_none.mp h
  rintro (hstop | hstop | hstop | ⟨hsame, hstop⟩ | ⟨hsame, hstop⟩)
  · exact hstop hmk
  · exact hstop hss
  · exact hstop hsd
  · rw [if_pos hsame, MoveFaults.raised, if_neg hstop.1] at hrest
    have hrefused := hstop.2
    cases hc : fl.move.copy2 with
    | refused e => rw [hc] at hrest; cases hrest.1
    | none | torn | corrupt => rw [hc] at hrefused; cases hrefused
  · rw [if_neg hsame] at hrest
    cases hc : fl.copy2 with
    | refused e => rw [hc] at hrest; cases hrest.1
    | none | torn | corrupt => rw [hc] at hstop; cases hstop

theorem TransferEnd.reported (h : TransferEnd env fl src dst f fs r fs')
    (hraised : fl.raised (env.sameDev src dst.dir) = none) :
    Reported fl env.sha (env.sameDev src dst.dir) f.bytes r := by
  obtain ⟨-, -, -, hrest⟩ := TransferFaults.raised_none.mp hraised
  cases h with
  | renamed hmove => exact .within hraised hmove.1
  | fellBack hdev => exact .within hraised hdev
  | renamedUnhashed hmove hhash =>
    rw [if_pos hmove.1] at hrest
    cases hrest.2.symm.trans hhash
  | fellBackUnhashed hdev _ _ _ hhash =>
    rw [if_pos hdev] at hrest
    cases hrest.2.symm.trans hhash
  | fellBackTorn hdev hrename hc =>
    rw [if_pos hdev, MoveFaults.raised, if_neg fun hmove => hrename hmove.2, hc] at hrest
    cases hrest.1
  | fellBackUndeleted hdev hrename hw hul =>
    rw [if_pos hdev, MoveFaults.raised, if_neg fun hmove => hrename hmove.2, hw.bytes.1, hul] at hrest
    cases hrest.1
  | torn hdev hc =>
    rw [if_neg hdev, hc] at hrest
    cases hrest.1
  | unverified hdev _ hraise =>
    rw [if_neg hdev] at hrest
    obtain ⟨-, hsync, hhs, hhd⟩ := hrest
    simp [hsync, hhs, hhd] at hraise
  | mismatch hdev hw _ _ _ hmis hu =>
    rw [hw.bytes.2] at hmis ⊢
    exact .discarded hraised hdev hmis hu
  | mismatchKept hdev hw _ _ _ hmis hu =>
    rw [hw.bytes.2] at hmis
    exact .undiscarded hraised hdev hmis hu
  | moved hdev hw _ _ _ heq hu =>
    rw [hw.bytes.2] at heq
    exact .across hraised hdev heq hu
  | undeleted hdev hw _ _ _ heq hu =>
    rw [hw.bytes.2] at heq
    exact .undeleted hraised hdev heq hu

/-- **What a verifying call answers**, by what its schedule has in store. -/
theorem transferFile_reported (env : Env) (fl : TransferFaults) (hne : src ≠ ⟨dstDir, src.name⟩)
    (hsrc : fs.read src = some f) :
    Reported fl env.sha (env.sameDev src dstDir) f.bytes (transferFile env fl src dstDir true fs).1 := by
  cases hraised : fl.raised (env.sameDev src dstDir) with
  | some e =>
    obtain ⟨fs', hbody⟩ := transferBody_raises hne hsrc hraised
    rw [transferFile, attempt, hbody]
    exact .raised hraised
  | none =>
    rcases transferFile_ends env fl hne hsrc with ⟨hstop, -⟩ | ⟨-, r, fs', he, hend⟩
    · exact absurd hstop (not_stopsEarly_of_raised hraised)
    · rw [he]
      exact hend.reported hraised

/-! ## What is compared -/

theorem comparedHashes_of_raised (hsrc : fs.read src = some f)
    (h : fl.raised (env.sameDev src dstDir) = none) (hdev : ¬ env.sameDev src dstDir) :
    ∃ fs', comparedHashes env fl src dstDir fs =
      .ok (some (env.sha.digest f.bytes, env.sha.digest (fl.copy2.bytes f.bytes))) fs' := by
  obtain ⟨hmk, hss, hsd, hrest⟩ := TransferFaults.raised_none.mp h
  rw [if_neg hdev] at hrest
  obtain ⟨hcp, hsync, hhs, hhd⟩ := hrest
  have hne : src ≠ ⟨dstDir, src.name⟩ := fun he => hdev (by rw [he]; rfl)
  have hdev' : ¬ env.dev src.dir = env.dev dstDir := hdev
  have hstat : stDev env none src fs = .ok (env.dev src.dir) fs := fetchThen_ok.mpr ⟨rfl, f, hsrc, rfl⟩
  have hdir : stDevDir env none dstDir fs = .ok (env.dev dstDir) fs := rfl
  simp only [comparedHashes, hmk, hss, hsd, hsync, hhs, hhd]
  rw [bind_of_ok raiseIf_none, bind_of_ok hstat, bind_of_ok hdir, if_neg hdev',
    bind_of_ok (copy2_returns env hne hsrc hcp), bind_of_ok raiseIf_none,
    bind_of_ok (computeSha256_ok.mpr ⟨rfl, f, (FS.read_write_ne hne).trans hsrc, rfl, rfl⟩),
    bind_of_ok (computeSha256_ok.mpr ⟨rfl, _, FS.read_write_self, rfl, rfl⟩)]
  exact ⟨_, rfl⟩

/-- A call that gets to the comparison raised nothing before it. -/
theorem raised_of_comparedHashes {a b : String}
    (h : comparedHashes env fl src dstDir fs = .ok (some (a, b)) fs') :
    fl.raised (env.sameDev src dstDir) = none ∧ ¬ env.sameDev src dstDir := by
  simp only [comparedHashes, bind_ok, raiseIf_ok] at h
  obtain ⟨_, _, ⟨hmk, rfl⟩, x, _, hstat, y, _, hdir, h⟩ := h
  obtain ⟨hss, g, -, hx⟩ := fetchThen_ok.mp hstat
  obtain ⟨_, _, hraise, hy⟩ := bind_ok.mp hdir
  obtain ⟨hsd, rfl⟩ := raiseIf_ok.mp hraise
  cases hx
  cases hy
  split at h
  · cases h
  · next hdev =>
    have hdev' : ¬ env.sameDev src dstDir := hdev
    simp only [bind_ok, raiseIf_ok] at h
    obtain ⟨_, _, hcp, _, _, ⟨hsync, rfl⟩, _, _, hsha, _, _, hsha', -⟩ := h
    obtain ⟨-, _, hg, -⟩ := copy2_ok.mp hcp
    obtain ⟨w, hw, rfl⟩ := CopyFault.Writes.of_ok hcp hg
    refine ⟨TransferFaults.raised_none.mpr ⟨hmk, hss, hsd, ?_⟩, hdev'⟩
    rw [if_neg hdev']
    exact ⟨hw.bytes.1, hsync, (computeSha256_ok.mp hsha).1, (computeSha256_ok.mp hsha').1⟩

theorem hashesDiffer_iff (env : Env) (fl : TransferFaults) (dstDir : Dir) (hsrc : fs.read src = some f) :
    HashesDiffer env fl src dstDir fs ↔
    fl.raised (env.sameDev src dstDir) = none ∧ ¬ env.sameDev src dstDir ∧
      env.sha.digest f.bytes ≠ env.sha.digest (fl.copy2.bytes f.bytes) := by
  refine ⟨fun h => ?_, fun h => ?_⟩
  · obtain ⟨a, b, fs', hcompared, hab⟩ := h
    obtain ⟨hraised, hdev⟩ := raised_of_comparedHashes hcompared
    obtain ⟨fs'', hsame⟩ := comparedHashes_of_raised hsrc hraised hdev
    cases hcompared.symm.trans hsame
    exact ⟨hraised, hdev, hab⟩
  · obtain ⟨hraised, hdev, hmis⟩ := h
    obtain ⟨fs', hcompared⟩ := comparedHashes_of_raised hsrc hraised hdev
    exact ⟨_, _, fs', hcompared, hmis⟩

/-! ## One attempt -/

theorem hasMismatch_mismatchMsg (x y : String) : hasMismatch (mismatchMsg x y) := by
  have hhead : "mismatch".toList <:+: "Checksum mismatch: ".toList := by decide
  unfold hasMismatch mismatchMsg
  rw [String.toList_append, String.toList_append, String.toList_append]
  rw [List.append_assoc, List.append_assoc]
  exact hhead.trans (List.prefix_append _ _).isInfix

theorem logResult_verifyFail_iff : logResult ⟨false, none, some e⟩ = .verifyFail ↔ hasMismatch e := by
  unfold logResult
  rw [if_neg Bool.false_ne_true]
  simp only [Option.getD_some]
  by_cases h : "mismatch".toList <:+: e.toList
  · rw [if_pos h]
    exact iff_of_true rfl h
  · rw [if_neg h]
    exact iff_of_false LogResult.noConfusion h

theorem logResult_ioError_iff : logResult ⟨false, none, some e⟩ = .ioError ↔ ¬ hasMismatch e := by
  rw [← logResult_verifyFail_iff]
  have hnot : logResult ⟨false, none, some e⟩ ≠ .ok := by
    rw [ne_eq, logResult_ok_iff]
    exact Bool.false_ne_true
  cases h : logResult ⟨false, none, some e⟩ with
  | ok => exact absurd h hnot
  | verifyFail | ioError => simp

/-- The entry of a failed attempt is right when its text tells what happened. -/
theorem classified_of_failure (h : (transferFile env fl src dstDir true fs).1 = ⟨false, none, some e⟩) :
    Classified env fl src dstDir fs (logResult (transferFile env fl src dstDir true fs).1) ↔
      (hasMismatch e ↔ HashesDiffer env fl src dstDir fs) := by
  refine ⟨fun hc => ?_, fun hc => ⟨logResult_ok_iff _, ?_, ?_⟩⟩
  · have hfail := hc.verifyFail
    rw [h, logResult_verifyFail_iff] at hfail
    exact hfail
  · rw [h, logResult_verifyFail_iff, hc]
  · rw [h, logResult_ioError_iff, hc]
    exact (and_iff_right rfl).symm

theorem classified_of_success (h : (transferFile env fl src dstDir true fs).1.success = true)
    (hd : ¬ HashesDiffer env fl src dstDir fs) :
    Classified env fl src dstDir fs (logResult (transferFile env fl src dstDir true fs).1) := by
  have hres := (logResult_ok_iff _).mpr h
  exact ⟨logResult_ok_iff _, by simp [hres, hd], by simp [hres, h]⟩

theorem classified_iff (env : Env) (fl : TransferFaults) (hne : src ≠ ⟨dstDir, src.name⟩)
    (hsrc : fs.read src = some f) :
    Classified env fl src dstDir fs (logResult (transferFile env fl src dstDir true fs).1) ↔
      fl.Telling env.sha (env.sameDev src dstDir) f.bytes := by
  have hrep := transferFile_reported env fl hne hsrc
  have hdiff := hashesDiffer_iff env fl dstDir hsrc
  unfold TransferFaults.Telling
  generalize hr : (transferFile env fl src dstDir true fs).1 = r at hrep
  cases hrep with
  | raised hraised =>
    simp only [hraised]
    rw [← hr, classified_of_failure hr, hdiff, hraised]
    simp
  | within hraised hsame =>
    simp only [hraised]
    rw [← hr]
    refine iff_of_true ?_ fun hdev => absurd hsame hdev
    exact classified_of_success (by rw [hr]) fun h => (hdiff.mp h).2.1 hsame
  | across hraised hdev heq hu =>
    simp only [hraised, if_pos heq]
    rw [← hr]
    refine iff_of_true ?_ fun _ e he => absurd (hu.symm.trans he) (by simp)
    exact classified_of_success (by rw [hr]) fun h => (hdiff.mp h).2.2 heq
  | undeleted hraised hdev heq hu =>
    simp only [hraised, if_pos heq]
    rw [← hr, classified_of_failure hr, hdiff]
    simp [hdev, heq, hu]
  | discarded hraised hdev hmis hu =>
    simp only [hraised, if_neg hmis]
    rw [← hr, classified_of_failure hr, hdiff]
    exact iff_of_true (iff_of_true (hasMismatch_mismatchMsg _ _) ⟨hraised, hdev, hmis⟩)
      fun _ e he => absurd (hu.symm.trans he) (by simp)
  | undiscarded hraised hdev hmis hu =>
    simp only [hraised, if_neg hmis]
    rw [← hr, classified_of_failure hr, hdiff]
    refine (iff_true_right ⟨hraised, hdev, hmis⟩).trans ?_
    simp [hdev, hu]

/-! ## The size -/

/-- The attempt leaves the source with its bytes, or there were none: it raises before
anything is moved, or its `shutil.move` does not go through, or it copies to another
device and then fails. -/
def TransferFaults.Sized (fl : TransferFaults) (H : Hash.Incremental) (same : Prop) (b : Bytes) : Prop :=
  b = [] ∨ fl.stopsEarly same ∨ same ∧ ¬ fl.move.completes same ∨ ¬ same ∧ ¬ fl.succeeds H same b

/-- When the file is still at the source after an attempt that reached the destination. -/
theorem TransferEnd.source_kept_iff (h : TransferEnd env fl src dst f fs r fs') (hne : src ≠ dst)
    (hsrc : fs.read src = some f) (hgo : ¬ fl.stopsEarly (env.sameDev src dst.dir)) :
    fs'.read src = some f ↔ env.sameDev src dst.dir ∧ ¬ fl.move.completes (env.sameDev src dst.dir) ∨
      ¬ env.sameDev src dst.dir ∧ ¬ fl.succeeds env.sha (env.sameDev src dst.dir) f.bytes := by
  rw [← h.success_iff hgo]
  unfold MoveFaults.completes
  cases h with
  | renamed hmove | renamedUnhashed hmove => simp [FS.read_write_ne hne, MoveFaults.renames, hmove.1, hmove.2]
  | fellBack hdev _ hw hul | fellBackUnhashed hdev _ hw hul => simp [hdev, hw.returns, hul]
  | fellBackTorn hdev hrename hc =>
    simp [FS.read_write_ne hne, hsrc, hdev, MoveFaults.renames, hrename, hc, CopyFault.returns]
  | fellBackUndeleted hdev hrename _ hul =>
    simp [FS.read_write_ne hne, hsrc, hdev, MoveFaults.renames, hrename, hul]
  | torn hdev | unverified hdev | mismatchKept hdev | undeleted hdev =>
    simp [FS.read_write_ne hne, hsrc, hdev]
  | mismatch hdev => simp [FS.read_remove_ne hne, FS.read_write_ne hne, hsrc, hdev]
  | moved hdev => simp [hdev]

theorem sized_iff (env : Env) (fl : TransferFaults) (hne : src ≠ ⟨dstDir, src.name⟩)
    (hsrc : fs.read src = some f) :
    (((transferFile env fl src dstDir true fs).2.read src).map (·.bytes.length)).getD 0 = f.bytes.length ↔
      fl.Sized env.sha (env.sameDev src dstDir) f.bytes := by
  unfold TransferFaults.Sized
  rcases transferFile_ends env fl hne hsrc with ⟨hstop, e, he⟩ | ⟨hgo, r, fs', he, hend⟩
  · rw [he]
    simp [hsrc, hstop]
  · rw [he, or_iff_right hgo, ← hend.source_kept_iff hne hsrc hgo]
    rcases hend.source hne hsrc with hkept | hgone
    · simp [hkept]
    · simp [hgone, eq_comm]

end

/-! ## A pass -/

/-- The files a pass hands to `transfer_file`, in order. -/
def attempted (rotate : ℚ) (inp : BatchInput) (fs : FS) : List Name :=
  (backlogPcaps fs).filter fun n => !turnActive rotate inp fs n

/-- The lines of a text file that are written whole. -/
def WriteFault.kept {α : Type} (lines : List α) : WriteFault → List α
  | .none => lines
  | .refused _ => []
  | .torn k _ _ => lines.take k

/-- The attempts of a pass whose entries are written. A pass that raises writes none. -/
def logged (env : Env) (rotate : ℚ) (inp : BatchInput) (drive : Drive) (d : Disk) : List Name :=
  match exportBatch env rotate inp drive d with
  | .ok _ _ => inp.log.kept (attempted rotate inp d.fs)
  | .error _ _ => []

/-- The entry of an attempt, the files being as the pass found them: no other
turn touches the two paths of this one. -/
def attemptEntry (env : Env) (inp : BatchInput) (dest : Dir) (fs : FS) (n : Name) : LogEntry :=
  logEntry inp dest n (turnOut env inp dest fs n).1 ((turnOut env inp dest fs n).2.read ⟨.backlog, n⟩)

/-- What a pass adds to the drive's `TRANSFER.LOG`. -/
def newEntries (env : Env) (rotate : ℚ) (inp : BatchInput) (drive : Drive) (d : Disk) : List LogEntry :=
  ((after (exportBatch env rotate inp drive) d).transferLog drive).drop (d.transferLog drive).length

section
variable {env : Env} {rotate : ℚ} {inp : BatchInput} {drive : Drive} {d d' : Disk} {n : Name} {fs : FS}

theorem WriteFault.kept_map {α β : Type} (fault : WriteFault) (g : α → β) (l : List α) :
    fault.kept (l.map g) = (fault.kept l).map g := by
  cases fault with
  | none | refused => rfl
  | torn k j e => exact (List.map_take).symm

theorem WriteFault.kept_subset {α : Type} (fault : WriteFault) (l : List α) : fault.kept l ⊆ l := by
  cases fault with
  | none => exact fun _ h => h
  | refused e => exact fun _ h => absurd h (by simp [WriteFault.kept])
  | torn k j e => exact List.take_subset k l

theorem appendTransferLog_kept (inp : BatchInput) (drive : Drive) (entries : List LogEntry) (d : Disk) :
    (appendTransferLog inp drive entries d).transferLog drive =
      d.transferLog drive ++ inp.log.kept entries := by
  unfold appendTransferLog
  cases inp.log <;> simp [WriteFault.kept]

theorem writeReceipts_log_kept (inp : BatchInput) (drive : Drive) (dest : Dir) (acc : Batch) (d : Disk) :
    (writeReceipts inp drive dest acc d).transferLog drive =
      d.transferLog drive ++ inp.log.kept acc.entries := by
  have hman : ∀ d : Disk, (writeManifest inp dest acc.transferred d).transferLog = d.transferLog :=
    fun _ => rfl
  have hnil : inp.log.kept ([] : List LogEntry) = [] := List.subset_nil.mp (WriteFault.kept_subset _ _)
  unfold writeReceipts
  split <;> split
  · next hnone => rw [hnone, hnil, List.append_nil]
  · exact appendTransferLog_kept inp drive _ d
  · next hnone => rw [hnone, hnil, List.append_nil, hman]
  · rw [← hman d]
    exact appendTransferLog_kept inp drive _ _

theorem filterMap_turnEntry_attempted (env : Env) (rotate : ℚ) (inp : BatchInput) (dest : Dir) (fs : FS) :
    (backlogPcaps fs).filterMap (turnEntry env rotate inp dest fs) =
      (attempted rotate inp fs).map (attemptEntry env inp dest fs) := by
  rw [attempted, ← filterMap_guard]
  refine List.filterMap_congr fun n _ => ?_
  unfold turnEntry
  cases turnActive rotate inp fs n <;> rfl

/-- The new entries of a pass are those of its attempts, as far as they are written. -/
theorem newEntries_eq (env : Env) (rotate : ℚ) (inp : BatchInput) (drive : Drive) (d : Disk) :
    newEntries env rotate inp drive d =
      (logged env rotate inp drive d).map (attemptEntry env inp (.pcap drive inp.date) d.fs) := by
  unfold newEntries logged
  cases h : exportBatch env rotate inp drive d with
  | ok counts d' =>
    obtain ⟨acc, d₁, hloop, rfl, -⟩ := exportBatch_ok h
    obtain ⟨-, -, -, -, hentries, -, hlog⟩ := exportLoop_ok (backlogPcaps_nodup d.fs) hloop
    rw [filterMap_turnEntry_attempted, List.nil_append] at hentries
    rw [after_ok h, writeReceipts_log_kept, hlog, List.drop_left, hentries]
    exact WriteFault.kept_map _ _ _
  | error e d' =>
    rw [after_error h]
    rcases exportBatch_error h with rfl | hloop
    · simp
    · rw [exportLoop_error_log hloop]
      simp

theorem logged_found (h : n ∈ logged env rotate inp drive d) : ∃ f, d.fs.read ⟨.backlog, n⟩ = some f := by
  unfold logged at h
  split at h
  · exact (mem_backlogPcaps.mp (List.mem_filter.mp (WriteFault.kept_subset _ _ h)).1).1
  · cases h

theorem forall_newEntries {P : Name → LogEntry → Prop} :
    (∀ n, ∀ entry ∈ newEntries env rotate inp drive d, entry.src = ⟨.backlog, n⟩ → P n entry) ↔
      ∀ n ∈ logged env rotate inp drive d, P n (attemptEntry env inp (.pcap drive inp.date) d.fs n) := by
  rw [newEntries_eq]
  refine ⟨fun h n hn => h n _ (List.mem_map_of_mem hn) rfl, fun h n entry hentry hsrc => ?_⟩
  obtain ⟨m, hm, rfl⟩ := List.mem_map.mp hentry
  have hmn : m = n := congrArg Path.name hsrc
  subst hmn
  exact h m hm

end

/-- **When `TRANSFER.LOG` classifies its attempts.** For every pass over any
backlog and every schedule of what raises, every entry written has the result
documented for what happened exactly when the schedule of every attempt logged
is telling. -/
theorem transfer_log_classifies_iff (env : Env) (rotate : ℚ) (inp : BatchInput) (drive : Drive)
    (d : Disk) :
    (∀ n, ∀ entry ∈ newEntries env rotate inp drive d, entry.src = ⟨.backlog, n⟩ →
      Classified env (inp.turn n).transfer ⟨.backlog, n⟩ (.pcap drive inp.date) d.fs entry.result) ↔
    ∀ n ∈ logged env rotate inp drive d, ∀ f, d.fs.read ⟨.backlog, n⟩ = some f →
      (inp.turn n).transfer.Telling env.sha (env.sameDev ⟨.backlog, n⟩ (.pcap drive inp.date))
        f.bytes := by
  rw [forall_newEntries]
  refine forall₂_congr fun n hn => ?_
  obtain ⟨f, hf⟩ := logged_found hn
  refine (classified_iff env (inp.turn n).transfer (Path.ne_of_dir Dir.noConfusion) hf).trans ?_
  simp [hf]

/-- The file `mismatch.pcap` is refused by the drive; the copy of `b.pcap` is bad
and cannot be removed. -/
def benchNamed : BatchInput where
  date := "20260101"
  turn := fun n =>
    { now := 100
      transfer :=
        if n = "b.pcap" then
          { copy2 := .corrupt [0x61]
            unlinkDst := some "[Errno 30] Read-only file system: '/mnt/SEER_EXT/pcap/20260101/b.pcap'" }
        else
          { copy2 := .refused
              "[Errno 13] Permission denied: '/mnt/SEER_EXT/pcap/20260101/mismatch.pcap'" } }

def benchNamedDisk : Disk where
  fs := (FS.empty.write ⟨.backlog, "b.pcap"⟩ ⟨[0x62], 10⟩).write ⟨.backlog, "mismatch.pcap"⟩ ⟨[0x61], 0⟩

/-- The first is logged as a failed verification with no hash computed, the second
as an I/O error with the hashes seen to differ. -/
theorem transfer_log_misclassifies :
    (newEntries benchEnv 20 benchNamed "SEER_EXT" benchNamedDisk).map (fun e => (e.src.name, e.result)) =
      [("b.pcap", .ioError), ("mismatch.pcap", .verifyFail)] ∧
    ¬ ∀ n, ∀ entry ∈ newEntries benchEnv 20 benchNamed "SEER_EXT" benchNamedDisk,
      entry.src = ⟨.backlog, n⟩ →
        Classified benchEnv (benchNamed.turn n).transfer ⟨.backlog, n⟩ (.pcap "SEER_EXT" "20260101")
          benchNamedDisk.fs entry.result := by
  refine ⟨by decide +kernel, fun h => ?_⟩
  have hlogged : "mismatch.pcap" ∈ logged benchEnv 20 benchNamed "SEER_EXT" benchNamedDisk := by
    decide +kernel
  have hc := forall_newEntries.mp h "mismatch.pcap" hlogged
  obtain ⟨a, b, fs', hcompared, -⟩ := hc.verifyFail.mp (by decide +kernel)
  obtain ⟨hraised, -⟩ := raised_of_comparedHashes hcompared
  revert hraised
  decide +kernel

/-- **When `TRANSFER.LOG` has the sizes right.** For every pass over any backlog,
on the drive's filesystem or on another, every entry written has the number of
bytes the source had exactly when every attempt logged leaves its source, or
was of an empty file. -/
theorem transfer_log_sizes_iff (env : Env) (rotate : ℚ) (inp : BatchInput) (drive : Drive) (d : Disk) :
    (∀ n, ∀ entry ∈ newEntries env rotate inp drive d, entry.src = ⟨.backlog, n⟩ →
      ∀ f, d.fs.read ⟨.backlog, n⟩ = some f → entry.size = f.bytes.length) ↔
    ∀ n ∈ logged env rotate inp drive d, ∀ f, d.fs.read ⟨.backlog, n⟩ = some f →
      (inp.turn n).transfer.Sized env.sha (env.sameDev ⟨.backlog, n⟩ (.pcap drive inp.date))
        f.bytes := by
  rw [forall_newEntries]
  refine forall₄_congr fun n _ f hf => ?_
  exact sized_iff env (inp.turn n).transfer (Path.ne_of_dir Dir.noConfusion) hf

/-- A file of one byte is exported, and logged as OK with size 0. -/
theorem transfer_log_size_zero :
    let d : Disk := { fs := FS.empty.write ⟨.backlog, "a.pcap"⟩ ⟨[0x61], 0⟩ }
    let inp : BatchInput := { date := "20260101", turn := fun _ => { now := 100 } }
    (newEntries benchEnv 20 inp "SEER_EXT" d).map (fun e => (e.src.name, e.size, e.result)) =
      [("a.pcap", 0, .ok)] ∧
    ¬ ∀ n, ∀ entry ∈ newEntries benchEnv 20 inp "SEER_EXT" d, entry.src = ⟨.backlog, n⟩ →
      ∀ f, d.fs.read ⟨.backlog, n⟩ = some f → entry.size = f.bytes.length := by
  intro d inp
  refine ⟨by decide +kernel, fun h => ?_⟩
  have hlogged : "a.pcap" ∈ logged benchEnv 20 inp "SEER_EXT" d := by decide +kernel
  have hsize := forall_newEntries.mp h "a.pcap" hlogged ⟨[0x61], 0⟩ (by decide +kernel)
  revert hsize
  decide +kernel

end SeerSensor
