/-
How a call of `transfer_file` ends, and what it guarantees.

`transferFile_ends` is the case analysis: with the source there, a verifying
call either stops before it writes anything or ends as `TransferEnd` says. The
guarantee of the exporter follows from it: the source goes away only by a
`shutil.move`, or after the two hashes were seen to agree.
-/
import SeerSensor.FilesFacts
import SeerSensor.Transfer

namespace SeerSensor

open Raise Replica

section
variable {env : Env} {fl : TransferFaults} {src dst : Path} {dstDir : Dir} {f : File} {fs fs' : FS}
  {e : String}
  {r : TransferResult}

theorem transferWithin_ok (hdev : env.sameDev src dst.dir) (hne : src ≠ dst) (hsrc : fs.read src = some f)
    (h : transferWithin env fl src dst true fs = .ok r fs') :
    ¬ fl.move.stopsEarly (env.sameDev src dst.dir) ∧ TransferEnd env fl src dst f fs r fs' := by
  simp only [transferWithin, if_true, bind_ok] at h
  obtain ⟨_, t, hmv, sha, _, hsha, h⟩ := h
  obtain ⟨hhash, g, hg, rfl, rfl⟩ := computeSha256_ok.mp hsha
  cases h
  rcases shutilMove_ok hmv hsrc with ⟨hmove, rfl⟩ | ⟨hmove, w, hw, hul, rfl⟩
  · rw [FS.read_write_self, Option.some.injEq] at hg
    subst hg
    exact ⟨fun hstop => hstop.1 hmove, .renamed hmove hhash⟩
  · rw [FS.read_remove_ne hne.symm, FS.read_write_self, Option.some.injEq] at hg
    subst hg
    refine ⟨fun hstop => ?_, .fellBack hdev (fun hr => hmove ⟨hdev, hr⟩) hw hul hhash⟩
    cases hw.not_refused.symm.trans hstop.2

theorem transferWithin_error (hdev : env.sameDev src dst.dir) (hne : src ≠ dst) (hsrc : fs.read src = some f)
    (h : transferWithin env fl src dst true fs = .error e fs') :
    (fl.move.stopsEarly (env.sameDev src dst.dir) ∧ fs' = fs) ∨
      (¬ fl.move.stopsEarly (env.sameDev src dst.dir) ∧
        TransferEnd env fl src dst f fs ⟨false, none, some e⟩ fs') := by
  have hraised : ¬ fl.move.renames (env.sameDev src dst.dir) → fl.move.rename ≠ none :=
    fun hmove hr => hmove ⟨hdev, hr⟩
  simp only [transferWithin, if_true, bind_error] at h
  rcases h with hmv | ⟨_, t, hmv, hsha | ⟨_, _, _, h⟩⟩
  · obtain ⟨hmove, ⟨hc, rfl⟩ | ⟨n, now, hc, rfl⟩ | ⟨w, hw, hul, rfl⟩⟩ := shutilMove_error hmv hne hsrc
    · exact .inl ⟨⟨hmove, by rw [hc]; rfl⟩, rfl⟩
    · refine .inr ⟨fun hstop => ?_, .fellBackTorn hdev (hraised hmove) hc⟩
      obtain ⟨-, hrefused⟩ := hstop
      rw [hc] at hrefused
      cases hrefused
    · refine .inr ⟨fun hstop => ?_, .fellBackUndeleted hdev (hraised hmove) hw hul⟩
      cases hw.not_refused.symm.trans hstop.2
  · rcases shutilMove_ok hmv hsrc with ⟨hmove, rfl⟩ | ⟨hmove, w, hw, hul, rfl⟩
    · obtain ⟨rfl, hhash⟩ := computeSha256_error hsha FS.read_write_self
      exact .inr ⟨fun hstop => hstop.1 hmove, .renamedUnhashed hmove hhash⟩
    · obtain ⟨rfl, hhash⟩ := computeSha256_error hsha ((FS.read_remove_ne hne.symm).trans FS.read_write_self)
      refine .inr ⟨fun hstop => ?_, .fellBackUnhashed hdev (hraised hmove) hw hul hhash⟩
      cases hw.not_refused.symm.trans hstop.2
  · cases h

theorem hashes_after_copy {w : File} {a b : String} {t t' : FS} (hne : src ≠ dst)
    (hsrc : fs.read src = some f) (ha : computeSha256 env fl.hashSrc src (fs.write dst w) = .ok a t)
    (hb : computeSha256 env fl.hashDst dst t = .ok b t') :
    t' = fs.write dst w ∧ fl.hashSrc = none ∧ fl.hashDst = none ∧
      a = env.sha.digest f.bytes ∧ b = env.sha.digest w.bytes := by
  obtain ⟨h1, g, hg, rfl, rfl⟩ := computeSha256_ok.mp ha
  obtain ⟨h2, g', hg', rfl, rfl⟩ := computeSha256_ok.mp hb
  rw [FS.read_write_ne hne, hsrc, Option.some.injEq] at hg
  rw [FS.read_write_self, Option.some.injEq] at hg'
  subst hg hg'
  exact ⟨rfl, h1, h2, rfl, rfl⟩

theorem transferAcross_ok (hdev : ¬ env.sameDev src dst.dir) (hsrc : fs.read src = some f)
    (h : transferAcross env fl src dst true fs = .ok r fs') :
    fl.copy2.isRefused = false ∧ TransferEnd env fl src dst f fs r fs' := by
  have hne : src ≠ dst := fun he => hdev (by rw [he]; rfl)
  simp only [transferAcross, if_true, bind_ok, raiseIf_ok] at h
  obtain ⟨_, t, hcp, _, _, ⟨hsync, rfl⟩, a, t₁, ha, b, t₂, hb, h⟩ := h
  obtain ⟨w, hw, rfl⟩ := CopyFault.Writes.of_ok hcp hsrc
  obtain ⟨rfl, h1, h2, rfl, rfl⟩ := hashes_after_copy hne hsrc ha hb
  refine ⟨hw.not_refused, ?_⟩
  split at h
  · next hmis =>
    obtain ⟨_, _, hul, h⟩ := bind_ok.mp h
    obtain ⟨hfault, _, rfl⟩ := unlink_ok.mp hul
    cases h
    exact .mismatch hdev hw hsync h1 h2 hmis hfault
  · next heq =>
    obtain ⟨_, _, hul, h⟩ := bind_ok.mp h
    obtain ⟨hfault, _, rfl⟩ := unlink_ok.mp hul
    cases h
    exact .moved hdev hw hsync h1 h2 (not_ne_iff.mp heq) hfault

theorem transferAcross_error (hdev : ¬ env.sameDev src dst.dir) (hsrc : fs.read src = some f)
    (h : transferAcross env fl src dst true fs = .error e fs') :
    (fl.copy2.isRefused = true ∧ fs' = fs) ∨
      (fl.copy2.isRefused = false ∧ TransferEnd env fl src dst f fs ⟨false, none, some e⟩ fs') := by
  have hne : src ≠ dst := fun he => hdev (by rw [he]; rfl)
  have hkept : ∀ w : File, (fs.write dst w).read src = some f :=
    fun w => by rw [FS.read_write_ne hne, hsrc]
  simp only [transferAcross, if_true, bind_error, raiseIf_ok, raiseIf_error] at h
  rcases h with hcp | ⟨_, t, hcp, h⟩
  · rcases copy2_error hcp hne hsrc with ⟨hfault, rfl⟩ | ⟨n, now, hfault, rfl⟩
    · exact .inl ⟨by simp [hfault, CopyFault.isRefused], rfl⟩
    · exact .inr ⟨by simp [hfault, CopyFault.isRefused], .torn hdev hfault⟩
  obtain ⟨w, hw, rfl⟩ := CopyFault.Writes.of_ok hcp hsrc
  refine .inr ⟨hw.not_refused, ?_⟩
  rcases h with ⟨hsync, rfl⟩ | ⟨_, _, ⟨hsync, rfl⟩, h⟩
  · exact .unverified hdev hw (.inl hsync)
  rcases h with ha | ⟨a, t₁, ha, hb | ⟨b, t₂, hb, h⟩⟩
  · obtain ⟨rfl, hfault⟩ := computeSha256_error ha (hkept w)
    exact .unverified hdev hw (.inr ⟨hsync, .inl hfault⟩)
  · obtain ⟨h1, _, _, _, rfl⟩ := computeSha256_ok.mp ha
    obtain ⟨rfl, hfault⟩ := computeSha256_error hb FS.read_write_self
    exact .unverified hdev hw (.inr ⟨hsync, .inr ⟨h1, hfault⟩⟩)
  obtain ⟨rfl, h1, h2, rfl, rfl⟩ := hashes_after_copy hne hsrc ha hb
  split at h
  · next hmis =>
    rcases bind_error.mp h with hul | ⟨_, _, _, h⟩
    · obtain ⟨rfl, hfault⟩ := unlink_error hul FS.read_write_self
      exact .mismatchKept hdev hw hsync h1 h2 hmis hfault
    · cases h
  · next heq =>
    rcases bind_error.mp h with hul | ⟨_, _, _, h⟩
    · obtain ⟨rfl, hfault⟩ := unlink_error hul (hkept w)
      exact .undeleted hdev hw hsync h1 h2 (not_ne_iff.mp heq) hfault
    · cases h

/-- Nothing in front of the branches raises: the call is one of them. -/
theorem transferBody_branch (env : Env) (dstDir : Dir) (verify : Bool) (hmk : fl.makedirs = none)
    (hss : fl.statSrc = none) (hsd : fl.statDst = none) (hsrc : fs.read src = some f) :
    transferBody env fl src dstDir verify fs =
      if env.sameDev src dstDir then transferWithin env fl src ⟨dstDir, src.name⟩ verify fs
      else transferAcross env fl src ⟨dstDir, src.name⟩ verify fs := by
  have hdev : stDev env fl.statSrc src fs = .ok (env.dev src.dir) fs := by
    simp only [stDev, hss]
    rw [bind_of_ok (fetch_ok.mpr ⟨hsrc, rfl⟩)]
    rfl
  have hdir : stDevDir env fl.statDst dstDir fs = .ok (env.dev dstDir) fs := by
    simp only [stDevDir, hsd]
    rfl
  simp only [transferBody, hmk]
  rw [bind_of_ok raiseIf_none, bind_of_ok hdev, bind_of_ok hdir]
  by_cases h : env.dev src.dir = env.dev dstDir
  · have hs : env.sameDev src dstDir := h
    simp only [h, hs, if_true]
  · have hs : ¬ env.sameDev src dstDir := h
    simp only [h, hs, if_false]

theorem transferBody_stops (env : Env) (dstDir : Dir) (verify : Bool) (hsrc : fs.read src = some f)
    (h : fl.makedirs ≠ none ∨ fl.statSrc ≠ none ∨ fl.statDst ≠ none) :
    ∃ e, transferBody env fl src dstDir verify fs = .error e fs := by
  have hfetch : fetch env src fs = .ok f fs := fetch_ok.mpr ⟨hsrc, rfl⟩
  simp only [transferBody, stDev, stDevDir]
  cases hmk : fl.makedirs with
  | some e => exact ⟨e, rfl⟩
  | none =>
    rw [bind_of_ok raiseIf_none]
    cases hss : fl.statSrc with
    | some e => exact ⟨e, bind_of_error (by rw [bind_of_ok hfetch]; rfl)⟩
    | none =>
      rw [bind_of_ok (a := env.dev src.dir) (by rw [bind_of_ok hfetch]; rfl)]
      cases hsd : fl.statDst with
      | some e => exact ⟨e, rfl⟩
      | none => simp [hmk, hss, hsd] at h

theorem transferFile_missing (env : Env) (fl : TransferFaults) (dstDir : Dir) (verify : Bool)
    (hsrc : fs.read src = none) :
    ∃ e, transferFile env fl src dstDir verify fs = (⟨false, none, some e⟩, fs) := by
  have hfetch : fetch env src fs = .error (env.enoent src) fs := fetch_error.mpr ⟨hsrc, rfl, rfl⟩
  have hbody : ∃ e, transferBody env fl src dstDir verify fs = .error e fs := by
    simp only [transferBody, stDev]
    cases fl.makedirs with
    | some e => exact ⟨e, rfl⟩
    | none =>
      rw [bind_of_ok raiseIf_none]
      exact ⟨_, bind_of_error (bind_of_error hfetch)⟩
  obtain ⟨e, he⟩ := hbody
  exact ⟨e, by simp [transferFile, attempt, he]⟩

/-- **How a verifying call ends**, with the source there: it stops before
anything is written or moved, or as `TransferEnd` says. -/
theorem transferFile_ends (env : Env) (fl : TransferFaults) {dstDir : Dir} (hne : src ≠ ⟨dstDir, src.name⟩)
    (hsrc : fs.read src = some f) :
    (fl.stopsEarly (env.sameDev src dstDir) ∧
      ∃ e, transferFile env fl src dstDir true fs = (⟨false, none, some e⟩, fs)) ∨
    (¬ fl.stopsEarly (env.sameDev src dstDir) ∧ ∃ r fs',
      transferFile env fl src dstDir true fs = (r, fs') ∧
      TransferEnd env fl src ⟨dstDir, src.name⟩ f fs r fs') := by
  by_cases hpre : fl.makedirs ≠ none ∨ fl.statSrc ≠ none ∨ fl.statDst ≠ none
  · obtain ⟨e, he⟩ := transferBody_stops env dstDir true hsrc hpre
    refine .inl ⟨?_, e, by simp [transferFile, attempt, he]⟩
    unfold TransferFaults.stopsEarly
    tauto
  simp only [not_or, not_ne_iff] at hpre
  obtain ⟨hmk, hss, hsd⟩ := hpre
  have hbr := transferBody_branch env dstDir true hmk hss hsd hsrc
  by_cases hdev : env.sameDev src dstDir
  · have hstop : fl.stopsEarly (env.sameDev src dstDir) ↔ fl.move.stopsEarly (env.sameDev src dstDir) := by
      simp [TransferFaults.stopsEarly, hmk, hss, hsd, hdev]
    rw [if_pos hdev] at hbr
    rw [hstop, transferFile, attempt, hbr]
    cases hw : transferWithin env fl src ⟨dstDir, src.name⟩ true fs with
    | ok r fs' =>
      obtain ⟨hgo, hend⟩ := transferWithin_ok hdev hne hsrc hw
      exact .inr ⟨hgo, r, fs', rfl, hend⟩
    | error e fs' =>
      rcases transferWithin_error hdev hne hsrc hw with ⟨hearly, rfl⟩ | ⟨hgo, hend⟩
      · exact .inl ⟨hearly, e, rfl⟩
      · exact .inr ⟨hgo, _, fs', rfl, hend⟩
  · have hstop : fl.stopsEarly (env.sameDev src dstDir) ↔ fl.copy2.isRefused = true := by
      simp [TransferFaults.stopsEarly, hmk, hss, hsd, hdev]
    rw [if_neg hdev] at hbr
    rw [hstop, transferFile, attempt, hbr]
    cases hw : transferAcross env fl src ⟨dstDir, src.name⟩ true fs with
    | ok r fs' =>
      obtain ⟨hcp, hend⟩ := transferAcross_ok hdev hsrc hw
      exact .inr ⟨by simp [hcp], r, fs', rfl, hend⟩
    | error e fs' =>
      rcases transferAcross_error hdev hsrc hw with ⟨hcp, rfl⟩ | ⟨hcp, hend⟩
      · exact .inl ⟨hcp, e, rfl⟩
      · exact .inr ⟨by simp [hcp], _, fs', rfl, hend⟩

theorem shutilMove_self (env : Env) (fl : MoveFaults) (hsrc : fs.read src = some f) :
    (after (shutilMove env fl src src) fs).read = fs.read := by
  by_cases hmove : fl.renames (env.sameDev src src.dir)
  · rw [after_ok (shutilMove_renames hmove hsrc)]
    funext p
    by_cases hp : p = src
    · rw [hp, FS.read_write_self, hsrc]
    · rw [FS.read_write_ne hp, FS.read_remove_ne hp]
  · rw [after, shutilMove_copies hmove, bind_of_error (copy2_self env fl.copy2 hsrc)]

theorem transferFile_self (env : Env) (fl : TransferFaults) (hsrc : fs.read src = some f) :
    (transferFile env fl src src.dir true fs).2.read = fs.read := by
  have hafter : (transferFile env fl src src.dir true fs).2 =
      after (transferBody env fl src src.dir true) fs := by
    unfold transferFile attempt after
    cases transferBody env fl src src.dir true fs <;> rfl
  rw [hafter]
  by_cases hpre : fl.makedirs ≠ none ∨ fl.statSrc ≠ none ∨ fl.statDst ≠ none
  · obtain ⟨e, he⟩ := transferBody_stops env src.dir true hsrc hpre
    rw [after_error he]
  simp only [not_or, not_ne_iff] at hpre
  obtain ⟨hmk, hss, hsd⟩ := hpre
  have hbr := transferBody_branch env src.dir true hmk hss hsd hsrc
  rw [if_pos (show env.sameDev src src.dir from rfl)] at hbr
  have hsame : after (transferBody env fl src src.dir true) fs =
      after (transferWithin env fl src src true) fs := by
    simp only [after, hbr]
  -- what follows the move only reads
  have hrest : ∀ u : Unit, Within (fun s t : FS => t.read = s.read) (do
      let sha ← computeSha256 env fl.hashDst src
      pure (⟨true, some sha, none⟩ : TransferResult)) := by
    intro _ s
    cases hsha : computeSha256 env fl.hashDst src s with
    | ok sha s' =>
      obtain ⟨-, -, -, -, rfl⟩ := computeSha256_ok.mp hsha
      rw [after_bind_ok hsha]
      rfl
    | error e s' =>
      cases computeSha256_unchanged hsha
      rw [after_bind_error hsha]
  have hmoved := within_rest (R := fun s t : FS => t.read = s.read) (x := shutilMove env fl.move src src)
    (fun _ => rfl) hrest fs
  rw [hsame]
  exact hmoved.trans (shutilMove_self env fl.move hsrc)

/-- On one device the files are where the call's `shutil.move` left them. -/
theorem TransferEnd.moveEnd (h : TransferEnd env fl src dst f fs r fs') (hdev : env.sameDev src dst.dir) :
    MoveEnd env fl.move src dst f fs fs' := by
  cases h with
  | renamed hmove | renamedUnhashed hmove => exact .renamed hmove
  | fellBack _ hr hw hul | fellBackUnhashed _ hr hw hul => exact .copied (fun hmove => hr hmove.2) hw hul
  | fellBackTorn _ hr hc => exact .torn (fun hmove => hr hmove.2) hc
  | fellBackUndeleted _ hr hw hul => exact .undeleted (fun hmove => hr hmove.2) hw hul
  | torn hd | unverified hd | mismatch hd | mismatchKept hd | moved hd | undeleted hd => exact absurd hdev hd

theorem TransferEnd.faultless (h : TransferEnd env {} src dst f fs r fs')
    (hdev : ¬ env.sameDev src dst.dir) :
    r.success = true ∧ fs' = (fs.write dst f).remove src := by
  cases h with
  | renamed hmove | renamedUnhashed hmove => exact absurd hmove.1 hdev
  | fellBack hd | fellBackUnhashed hd | fellBackTorn hd | fellBackUndeleted hd => exact absurd hd hdev
  | torn _ hc => cases hc
  | unverified _ _ hraise => simp at hraise
  | mismatch _ hw _ _ _ hmis => cases hw; exact absurd rfl hmis
  | mismatchKept _ _ _ _ _ _ hu => cases hu
  | moved _ hw => cases hw; exact ⟨rfl, rfl⟩
  | undeleted _ _ _ _ _ _ hu => cases hu

theorem TransferEnd.frame (h : TransferEnd env fl src dst f fs r fs') {p : Path} (hs : p ≠ src)
    (hd : p ≠ dst) :
    fs'.read p = fs.read p := by
  cases h <;> simp only [FS.read_write_ne hd, FS.read_remove_ne hs, FS.read_remove_ne hd]

theorem transferFile_frame (env : Env) (fl : TransferFaults) {dstDir : Dir} {p : Path} (hs : p ≠ src)
    (hd : p ≠ ⟨dstDir, src.name⟩) : (transferFile env fl src dstDir true fs).2.read p = fs.read p := by
  cases hsrc : fs.read src with
  | none =>
    obtain ⟨e, he⟩ := transferFile_missing env fl dstDir true hsrc
    rw [he]
  | some f =>
    by_cases hne : src = ⟨dstDir, src.name⟩
    · have hdir : dstDir = src.dir := (congrArg Path.dir hne).symm
      rw [hdir, transferFile_self env fl hsrc]
    · rcases transferFile_ends env fl hne hsrc with ⟨_, e, he⟩ | ⟨_, r, fs', he, hend⟩
      · rw [he]
      · rw [he]; exact hend.frame hs hd

theorem TransferEnd.source (h : TransferEnd env fl src dst f fs r fs')
    (hne : src ≠ dst) (hsrc : fs.read src = some f) : fs'.read src = some f ∨ fs'.read src = none := by
  cases h with
  | renamed | renamedUnhashed => right; rw [FS.read_write_ne hne, FS.read_remove_self]
  | torn | unverified | mismatchKept | undeleted | fellBackTorn | fellBackUndeleted =>
    left; rw [FS.read_write_ne hne, hsrc]
  | mismatch => left; rw [FS.read_remove_ne hne, FS.read_write_ne hne, hsrc]
  | moved | fellBack | fellBackUnhashed => right; rw [FS.read_remove_self]

theorem TransferEnd.source_kept (h : TransferEnd env fl src dst f fs r fs')
    (hsrc : fs.read src = some f)
    (hne : src ≠ dst) (hdev : ¬ env.sameDev src dst.dir) (hr : r.success = false) :
    fs'.read src = some f := by
  cases h with
  | renamed hmove | renamedUnhashed hmove => exact absurd hmove.1 hdev
  | fellBack hd | fellBackUnhashed hd | fellBackTorn hd | fellBackUndeleted hd => exact absurd hd hdev
  | torn | unverified | mismatchKept | undeleted => rw [FS.read_write_ne hne, hsrc]
  | mismatch => rw [FS.read_remove_ne hne, FS.read_write_ne hne, hsrc]
  | moved => cases hr

theorem CopyFault.Writes.delivers {H : Hash.Incremental} {w : File} (h : fl.copy2.Writes f w)
    (hsha : H.digest f.bytes = H.digest w.bytes) : fl.copy2.Delivers H f.bytes := by
  cases hfault : fl.copy2 <;> rw [hfault] at h <;> cases h
  · exact .inl rfl
  · exact .inr ⟨_, rfl, hsha⟩

theorem CopyFault.Delivers.digest {H : Hash.Incremental} {w : File} (h : fl.copy2.Delivers H f.bytes)
    (hw : fl.copy2.Writes f w) : H.digest f.bytes = H.digest w.bytes := by
  rcases h with h | ⟨b, h, hb⟩
  · rw [h] at hw; cases hw; rfl
  · rw [h] at hw; cases hw; exact hb

theorem TransferEnd.success_iff (h : TransferEnd env fl src dst f fs r fs')
    (hgo : ¬ fl.stopsEarly (env.sameDev src dst.dir)) :
    r.success = true ↔ fl.succeeds env.sha (env.sameDev src dst.dir) f.bytes := by
  unfold TransferFaults.succeeds
  cases h with
  | renamed hmove hhash => exact ⟨fun _ => ⟨hgo, hhash, .inl ⟨hmove.1, .inl hmove⟩⟩, fun _ => rfl⟩
  | renamedUnhashed _ hhash | fellBackUnhashed _ _ _ _ hhash => simp [hhash]
  | fellBack hdev _ hw hul hhash =>
    exact ⟨fun _ => ⟨hgo, hhash, .inl ⟨hdev, .inr ⟨hw.returns, hul⟩⟩⟩, fun _ => rfl⟩
  | fellBackTorn hdev hr hc =>
    simp [hdev, hr, hc, MoveFaults.completes, MoveFaults.renames, CopyFault.returns]
  | fellBackUndeleted hdev hr _ hul => simp [hdev, hr, hul, MoveFaults.completes, MoveFaults.renames]
  | torn hdev hc => simp [hdev, hc, CopyFault.Delivers]
  | unverified hdev hw hraise =>
    rcases hraise with hs | ⟨_, hs | ⟨_, hs⟩⟩
    · simp [hdev, hs]
    · simp [hdev, hs]
    · simp [hs]
  | mismatch hdev hw _ _ _ hmis | mismatchKept hdev hw _ _ _ hmis =>
    refine ⟨fun hr => absurd hr (by simp), fun hr => ?_⟩
    obtain ⟨-, -, ⟨hsame, -⟩ | ⟨-, -, -, -, hdel⟩⟩ := hr
    · exact absurd hsame hdev
    · exact absurd (hdel.digest hw) hmis
  | moved hdev hw hsync hsrc hdst heq hu =>
    exact ⟨fun _ => ⟨hgo, hdst, .inr ⟨hdev, hsync, hsrc, hu, hw.delivers heq⟩⟩, fun _ => rfl⟩
  | undeleted hdev hw hsync hsrc hdst heq hu => simp [hdev, hu]

/-- What a success reports is the hash of what is now at the destination. -/
theorem TransferEnd.receipt (h : TransferEnd env fl src dst f fs r fs') (hne : src ≠ dst)
    (hr : r.success = true) :
    ∃ w, fs'.read dst = some w ∧ r.sha256 = some (env.sha.digest w.bytes) := by
  cases h with
  | renamed => exact ⟨f, by simp, rfl⟩
  | @moved w _ _ _ _ _ heq =>
    refine ⟨w, ?_, by rw [heq]⟩
    rw [FS.read_remove_ne hne.symm, FS.read_write_self]
  | @fellBack w => exact ⟨w, by rw [FS.read_remove_ne hne.symm, FS.read_write_self], rfl⟩
  | renamedUnhashed | fellBackUnhashed | fellBackTorn | fellBackUndeleted | torn | unverified | mismatch |
    mismatchKept | undeleted => cases hr

/-- So whoever hashes the destination gets what was reported, however the reads split it. -/
theorem TransferEnd.receipt_reads (h : TransferEnd env fl src dst f fs r fs') (hne : src ≠ dst)
    (hr : r.success = true) :
    ∃ w, fs'.read dst = some w ∧ ∀ (reads : FileReads w.bytes) (fuel : Nat), w.bytes.length < fuel →
      sha256Reads env.sha reads.read fuel = r.sha256 := by
  obtain ⟨w, hw, hsha⟩ := h.receipt hne hr
  refine ⟨w, hw, fun reads fuel hfuel => ?_⟩
  rw [sha256Reads_eq env.sha reads hfuel, hsha]

/-- What a call that reached the destination leaves there, its copy being honest. -/
theorem TransferEnd.reaches (h : TransferEnd env fl src dst f fs r fs') (hh : fl.Honest)
    (hne : src ≠ dst) :
    ∃ k, fs'.contents dst = some (f.bytes.take k) := by
  have hall : f.bytes = f.bytes.take f.bytes.length := List.take_length.symm
  cases h with
  | renamed | renamedUnhashed => exact ⟨_, by rw [FS.contents_write_self, ← hall]⟩
  | @torn n | @fellBackTorn n => exact ⟨n, by rw [FS.contents_write_self]⟩
  | unverified _ hw | undeleted _ hw | mismatchKept _ hw =>
    rw [hw.honest hh.copy2]
    exact ⟨_, by rw [FS.contents_write_self, ← hall]⟩
  | fellBackUndeleted _ _ hw =>
    rw [hw.honest hh.move]
    exact ⟨_, by rw [FS.contents_write_self, ← hall]⟩
  | mismatch _ hw _ _ _ hmis => exact absurd (by rw [hw.honest hh.copy2]) hmis
  | moved _ hw =>
    rw [hw.honest hh.copy2]
    refine ⟨f.bytes.length, ?_⟩
    rw [FS.contents, FS.read_remove_ne hne.symm, FS.read_write_self, ← hall]
    rfl
  | fellBack _ _ hw | fellBackUnhashed _ _ hw =>
    rw [hw.honest hh.move]
    refine ⟨f.bytes.length, ?_⟩
    rw [FS.contents, FS.read_remove_ne hne.symm, FS.read_write_self, ← hall]
    rfl

theorem transferFile_success_iff (env : Env) (fl : TransferFaults) {dstDir : Dir}
    (hne : src ≠ ⟨dstDir, src.name⟩) (hsrc : fs.read src = some f) :
    (transferFile env fl src dstDir true fs).1.success = true ↔
      fl.succeeds env.sha (env.sameDev src dstDir) f.bytes := by
  rcases transferFile_ends env fl hne hsrc with ⟨hstop, e, he⟩ | ⟨hgo, r, fs', he, hend⟩
  · rw [he]
    exact ⟨fun h => absurd h (by simp), fun h => absurd hstop h.1⟩
  · rw [he]
    exact hend.success_iff hgo

theorem transferFile_receipt {dstDir : Dir} (hne : src ≠ ⟨dstDir, src.name⟩)
    (hr : (transferFile env fl src dstDir true fs).1.success = true) :
    ∃ w, (transferFile env fl src dstDir true fs).2.read ⟨dstDir, src.name⟩ = some w ∧
      (transferFile env fl src dstDir true fs).1.sha256 = some (env.sha.digest w.bytes) := by
  cases hsrc : fs.read src with
  | none =>
    obtain ⟨e, he⟩ := transferFile_missing env fl dstDir true hsrc
    rw [he] at hr
    cases hr
  | some f =>
    rcases transferFile_ends env fl hne hsrc with ⟨_, e, he⟩ | ⟨_, r, fs', he, hend⟩
    · rw [he] at hr; cases hr
    · rw [he] at hr ⊢
      exact hend.receipt hne hr

/-- A reported success, when the hash tells what was written from the source and a move
that falls back copies what it is given. -/
theorem TransferEnd.success (h : TransferEnd env fl src dst f fs r fs') (hne : src ≠ dst)
    (hsha : ∀ b, fl.copy2 = .corrupt b → env.sha.digest f.bytes = env.sha.digest b → b = f.bytes)
    (hmove : fl.move.rename ≠ none → fl.move.copy2.Honest) (hr : r.success = true) :
    r.sha256 = some (env.sha.digest f.bytes) ∧ r.error = none ∧ fs'.read src = none ∧
      fs'.contents dst = some f.bytes := by
  cases h with
  | renamed => exact ⟨rfl, rfl, by rw [FS.read_write_ne hne, FS.read_remove_self], by simp⟩
  | moved _ hw _ _ _ heq =>
    refine ⟨rfl, rfl, by simp, ?_⟩
    rw [FS.contents, FS.read_remove_ne hne.symm, FS.read_write_self]
    cases hfault : fl.copy2 <;> rw [hfault] at hw <;> cases hw
    · rfl
    · next b => simp [hsha b hfault heq]
  | fellBack _ hrename hw =>
    rw [hw.honest (hmove hrename)]
    refine ⟨rfl, rfl, by simp, ?_⟩
    rw [FS.contents, FS.read_remove_ne hne.symm, FS.read_write_self]
    rfl
  | renamedUnhashed | fellBackUnhashed | fellBackTorn | fellBackUndeleted | torn | unverified | mismatch |
    mismatchKept | undeleted => cases hr

/-- A call whose copy writes what it is given carries the source to the destination. -/
theorem TransferEnd.carry (h : TransferEnd env fl src dst f fs r fs') (hh : fl.Honest)
    (hne : src ≠ dst) (hsrc : fs.read src = some f) : Carry src dst fs.contents fs'.contents := by
  cases h with
  | renamed | renamedUnhashed => exact contents_rename hsrc
  | torn | fellBackTorn => exact contents_torn hsrc _ _
  | unverified _ hw | undeleted _ hw | mismatchKept _ hw => rw [hw.honest hh.copy2]; exact contents_copy hsrc
  | fellBackUndeleted _ _ hw => rw [hw.honest hh.move]; exact contents_copy hsrc
  | mismatch _ hw _ _ _ hmis => exact absurd (by rw [hw.honest hh.copy2]) hmis
  | moved _ hw => rw [hw.honest hh.copy2]; exact contents_copy_unlink hne hsrc
  | fellBack _ _ hw | fellBackUnhashed _ _ hw => rw [hw.honest hh.move]; exact contents_copy_unlink hne hsrc

/-! ## A transfer reads and writes its two paths only -/

/-- The same files on the paths `S`. -/
def FS.Agree (S : Path → Prop) (fs gs : FS) : Prop := ∀ p, S p → fs.read p = gs.read p

section
variable {S : Path → Prop} {p : Path}

theorem FS.Agree.write {gs : FS} (h : FS.Agree S fs gs) (p : Path) (f : File) :
    FS.Agree S (fs.write p f) (gs.write p f) := by
  intro q hq
  by_cases hqp : q = p
  · rw [hqp, FS.read_write_self, FS.read_write_self]
  · rw [FS.read_write_ne hqp, FS.read_write_ne hqp, h q hq]

theorem FS.Agree.remove {gs : FS} (h : FS.Agree S fs gs) (p : Path) :
    FS.Agree S (fs.remove p) (gs.remove p) := by
  intro q hq
  by_cases hqp : q = p
  · rw [hqp, FS.read_remove_self, FS.read_remove_self]
  · rw [FS.read_remove_ne hqp, FS.read_remove_ne hqp, h q hq]

theorem fetch_local (hp : S p) : Respects (FS.Agree S) (fetch env p) := by
  intro fs gs h
  unfold fetch
  rw [← h p hp]
  cases fs.read p with
  | some f => exact .inl ⟨f, fs, gs, rfl, rfl, h⟩
  | none => exact .inr ⟨_, fs, gs, rfl, rfl, h⟩

theorem unlink_local {fault : Option String} (hp : S p) : Respects (FS.Agree S) (unlink env fault p) :=
  respects_bind (fetch_local hp) fun _ => respects_bind (respects_raiseIf _) fun _ =>
    respects_modify fun _ _ h => h.remove p

theorem rename_local {fault : Option String} (hsrc : S src) :
    Respects (FS.Agree S) (rename env fault src dst) :=
  respects_bind (fetch_local hsrc) fun f => respects_bind (respects_raiseIf _) fun _ =>
    respects_modify fun _ _ h => (h.remove src).write dst f

theorem copy2_local {fault : CopyFault} (hsrc : S src) :
    Respects (FS.Agree S) (copy2 env fault src dst) := by
  refine respects_bind (fetch_local hsrc) fun f => ?_
  by_cases heq : src = dst
  · rw [if_pos heq]
    exact respects_raiseIf _
  rw [if_neg heq]
  cases fault with
  | none => exact respects_modify fun _ _ h => h.write dst f
  | refused e => exact respects_raiseIf _
  | torn n now e => exact respects_bind (respects_modify fun _ _ h => h.write dst _) fun _ =>
    respects_raiseIf _
  | corrupt b => exact respects_modify fun _ _ h => h.write dst _

theorem shutilMove_local {fl : MoveFaults} (hsrc : S src) :
    Respects (FS.Agree S) (shutilMove env fl src dst) :=
  respects_tryCatch (rename_local hsrc) fun _ => respects_bind (copy2_local hsrc) fun _ => unlink_local hsrc

theorem computeSha256_local {fault : Option String} (hp : S p) :
    Respects (FS.Agree S) (computeSha256 env fault p) :=
  respects_bind (fetch_local hp) fun _ => respects_bind (respects_raiseIf _) fun _ => respects_pure _

theorem transferWithin_local {verify : Bool} (hsrc : S src) (hdst : S dst) :
    Respects (FS.Agree S) (transferWithin env fl src dst verify) := by
  refine respects_bind (shutilMove_local hsrc) fun _ => ?_
  split
  · exact respects_bind (computeSha256_local hdst) fun _ => respects_pure _
  · exact respects_pure _

theorem transferAcross_local {verify : Bool} (hsrc : S src) (hdst : S dst) :
    Respects (FS.Agree S) (transferAcross env fl src dst verify) := by
  refine respects_bind (copy2_local hsrc) fun _ => respects_bind (respects_raiseIf _) fun _ => ?_
  split
  · refine respects_bind (computeSha256_local hsrc) fun a =>
      respects_bind (computeSha256_local hdst) fun b => ?_
    split
    · exact respects_bind (unlink_local hdst) fun _ => respects_pure _
    · exact respects_bind (unlink_local hsrc) fun _ => respects_pure _
  · exact respects_bind (unlink_local hsrc) fun _ => respects_pure _

/-- What a call returns and leaves at its two paths depends on what was there. -/
theorem transferFile_local (env : Env) (fl : TransferFaults) {dstDir : Dir} (verify : Bool)
    (hsrc : S src) (hdst : S ⟨dstDir, src.name⟩) {gs : FS} (h : FS.Agree S fs gs) :
    (transferFile env fl src dstDir verify fs).1 = (transferFile env fl src dstDir verify gs).1 ∧
      FS.Agree S (transferFile env fl src dstDir verify fs).2
        (transferFile env fl src dstDir verify gs).2 := by
  refine respects_attempt ?_ _ h
  refine respects_bind (respects_raiseIf _) fun _ =>
    respects_bind (respects_bind (fetch_local hsrc) fun _ =>
    respects_bind (respects_raiseIf _) fun _ => respects_pure _) fun a =>
    respects_bind (respects_bind (respects_raiseIf _) fun _ => respects_pure _) fun b => ?_
  split
  · exact transferWithin_local hsrc hdst
  · exact transferAcross_local hsrc hdst

end

/-- **Verify before delete.** Where nothing is at the destination yet, a
verifying call leaves the source's bytes at the source or at the destination;
a success carries a hash, and means that the source is gone, the destination
holds exactly its bytes and the hash is theirs; across devices a failure keeps
the source. `hsha` is the assumption on SHA-256: it tells the source's bytes
from what a copy wrote in their place. `hmove` is the one on `shutil.move`, on
one device: where the rename raises, no copy that falls in for it returns with
other bytes written. A rename that raises without effect is the case of a copy
that is refused. -/
theorem transferFile_verify_before_delete (env : Env) (fl : TransferFaults) (src : Path)
    (dstDir : Dir) (fs : FS)
    (f : File) (hsrc : fs.read src = some f) (hdst : fs.read ⟨dstDir, src.name⟩ = none)
    (hsha : ∀ b, fl.copy2 = .corrupt b → env.sha.digest f.bytes = env.sha.digest b → b = f.bytes)
    (hmove : fl.move.rename ≠ none → fl.move.copy2.Honest) :
    let out := transferFile env fl src dstDir true fs
    let dst : Path := ⟨dstDir, src.name⟩
    (out.2.contents src = some f.bytes ∨ out.2.contents dst = some f.bytes) ∧
    (out.1.success = true → ∃ sha, out.1 = ⟨true, some sha, none⟩) ∧
    (∀ sha, out.1 = ⟨true, some sha, none⟩ →
      out.2.read src = none ∧ out.2.contents dst = some f.bytes ∧ sha = env.sha.digest f.bytes) ∧
    (¬ env.sameDev src dstDir → out.1.success = false → out.2.contents src = some f.bytes) := by
  intro out dst
  have hne : src ≠ dst := fun he => by rw [he, hdst] at hsrc; cases hsrc
  rcases transferFile_ends env fl hne hsrc with ⟨_, e, he⟩ | ⟨_, r, fs', he, hend⟩
  · have hout : out = (⟨false, none, some e⟩, fs) := he
    have hkept : out.2.contents src = some f.bytes := by rw [hout]; exact FS.contents_of_read hsrc
    refine ⟨.inl hkept, fun hs => ?_, fun sha hs => ?_, fun _ _ => hkept⟩
    · rw [hout] at hs
      cases hs
    · rw [hout] at hs
      cases hs
  · have hout : out = (r, fs') := he
    rw [hout]
    refine ⟨?_, fun hr => ?_, fun sha hs => ?_, fun hdev hr => FS.contents_of_read
      (hend.source_kept hsrc hne hdev hr)⟩
    · by_cases hr : r.success = true
      · exact .inr (hend.success hne hsha hmove hr).2.2.2
      by_cases hdev : env.sameDev src dstDir
      · cases hend with
        | renamed | renamedUnhashed => right; simp [dst]
        | fellBack => exact absurd rfl hr
        | fellBackUnhashed _ hrename hw =>
          right
          rw [hw.honest (hmove hrename), FS.contents, FS.read_remove_ne hne.symm, FS.read_write_self]
          rfl
        | fellBackTorn | fellBackUndeleted => left; rw [FS.contents_write_ne hne, FS.contents_of_read hsrc]
        | torn hd | unverified hd | mismatch hd | mismatchKept hd | moved hd | undeleted hd =>
          exact absurd hdev hd
      · exact .inl (FS.contents_of_read (hend.source_kept hsrc hne hdev (by simpa using hr)))
    · obtain ⟨h1, h2, -, -⟩ := hend.success hne hsha hmove hr
      refine ⟨env.sha.digest f.bytes, ?_⟩
      show r = ⟨true, some (env.sha.digest f.bytes), none⟩
      rw [← hr, ← h1, ← h2]
    · have hs : r = ⟨true, some sha, none⟩ := hs
      obtain ⟨h1, _, h3, h4⟩ := hend.success hne hsha hmove (by rw [hs])
      rw [hs, Option.some.injEq] at h1
      exact ⟨h3, h4, h1⟩

/-- A copy that returns with `b` written for `a`: the call fails and the backlog keeps `a`. -/
theorem transferFile_verify_before_delete_corrupt :
    let fs := FS.empty.write ⟨.backlog, "SEER-20260101-000000.pcap"⟩ ⟨[0x61], 0⟩
    let out := transferFile benchEnv { copy2 := .corrupt [0x62] }
      ⟨.backlog, "SEER-20260101-000000.pcap"⟩ (.pcap "SEER_EXT" "20260101") true fs
    out.1.success = false ∧ out.2.contents ⟨.backlog, "SEER-20260101-000000.pcap"⟩ = some [0x61] := by
  intro fs out
  have hfail : out.1.success = false := by decide
  have h := transferFile_verify_before_delete benchEnv { copy2 := .corrupt [0x62] }
    ⟨.backlog, "SEER-20260101-000000.pcap"⟩ (.pcap "SEER_EXT" "20260101") fs ⟨[0x61], 0⟩
    (by decide) (by decide)
    (fun b hb hd => by cases hb; exact absurd hd (by decide)) (fun h => absurd rfl h)
  exact ⟨hfail, h.2.2.2 (by decide) hfail⟩

end

end SeerSensor
