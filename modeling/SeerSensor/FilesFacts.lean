/-
What each call on the files does: one specification a call for the way it
returns and one for the way it raises, and from them the ways a `shutil.move`
ends. Nothing after this module looks inside a call.
-/
import SeerSensor.Files
import SeerSensor.Lib.Carry

namespace SeerSensor

open Raise

section
variable {env : Env} {fs fs' : FS} {p src dst : Path} {f : File} {u : Unit} {e : String}
  {fault : Option String}

theorem fetch_ok : fetch env p fs = .ok f fs' ↔ fs.read p = some f ∧ fs' = fs := by
  unfold fetch
  cases fs.read p with
  | none => simp
  | some g => simp [eq_comm]

theorem fetch_error : fetch env p fs = .error e fs' ↔ fs.read p = none ∧ e = env.enoent p ∧
    fs' = fs := by
  unfold fetch
  cases fs.read p with
  | none => simp [eq_comm]
  | some g => simp

theorem fetchThen_ok {α : Type} {act : File → Prog FS α} {a : α} :
    (do let f ← fetch env p; raiseIf fault; act f) fs = .ok a fs' ↔
      fault = none ∧ ∃ f, fs.read p = some f ∧ act f fs = .ok a fs' := by
  simp only [bind_ok, fetch_ok, raiseIf_ok]
  refine ⟨fun h => ?_, fun h => ?_⟩
  · obtain ⟨f, _, ⟨hf, rfl⟩, _, _, ⟨hfault, rfl⟩, h⟩ := h
    exact ⟨hfault, f, hf, h⟩
  · obtain ⟨hfault, f, hf, h⟩ := h
    exact ⟨f, fs, ⟨hf, rfl⟩, (), fs, ⟨hfault, rfl⟩, h⟩

theorem fetchThen_error {α : Type} {act : File → Prog FS α}
    (h : (do let f ← fetch env p; raiseIf fault; act f) fs = .error e fs')
    (hact : ∀ f t, act f t ≠ .error e fs') :
    fs' = fs ∧ (fs.read p = none ∨ fault = some e) := by
  simp only [bind_error, fetch_ok, fetch_error, raiseIf_ok, raiseIf_error] at h
  rcases h with ⟨hf, _, rfl⟩ | ⟨f, _, ⟨_, rfl⟩, ⟨hfault, rfl⟩ | ⟨_, _, _, h⟩⟩
  · exact ⟨rfl, .inl hf⟩
  · exact ⟨rfl, .inr hfault⟩
  · exact absurd h (hact f _)

/-- With the file there, it is the fault that raises. -/
theorem fetchThen_fault {α : Type} {act : File → Prog FS α}
    (h : (do let f ← fetch env p; raiseIf fault; act f) fs = .error e fs')
    (hact : ∀ f t, act f t ≠ .error e fs') (hp : fs.read p = some f) : fs' = fs ∧ fault = some e := by
  obtain ⟨hfs, hnone | hfault⟩ := fetchThen_error h hact
  · cases hp.symm.trans hnone
  · exact ⟨hfs, hfault⟩

theorem rename_ok : rename env fault src dst fs = .ok u fs' ↔
    (env.sameDev src dst.dir ∧ fault = none) ∧ ∃ f, fs.read src = some f ∧ fs' = (fs.remove src).write dst f := by
  have hfault : (if env.dev src.dir = env.dev dst.dir then fault
      else some "[Errno 18] Invalid cross-device link") = none ↔ env.sameDev src dst.dir ∧ fault = none := by
    by_cases hdev : env.dev src.dir = env.dev dst.dir <;> simp [Env.sameDev, hdev]
  refine fetchThen_ok.trans ?_
  rw [hfault]
  simp only [modify_apply, EStateM.Result.ok.injEq, true_and, eq_comm]

theorem rename_error (h : rename env fault src dst fs = .error e fs') : fs' = fs :=
  (fetchThen_error h fun _ _ => nofun).1

theorem unlink_ok : unlink env fault p fs = .ok u fs' ↔
    fault = none ∧ (∃ f, fs.read p = some f) ∧ fs' = fs.remove p := by
  refine fetchThen_ok.trans ?_
  simp only [modify_apply, EStateM.Result.ok.injEq, true_and, exists_and_right, eq_comm]

theorem unlink_error (h : unlink env fault p fs = .error e fs') (hp : fs.read p = some f) :
    fs' = fs ∧ fault = some e :=
  fetchThen_fault h (fun _ _ => nofun) hp

theorem copy2_ok {fault : CopyFault} : copy2 env fault src dst fs = .ok u fs' ↔ src ≠ dst ∧
    ∃ f, fs.read src = some f ∧ (fault = .none ∧ fs' = fs.write dst f ∨
      ∃ b, fault = .corrupt b ∧ fs' = fs.write dst ⟨b, f.mtime⟩) := by
  simp only [copy2, bind_ok, fetch_ok]
  refine ⟨fun h => ?_, fun h => ?_⟩
  · obtain ⟨f, _, ⟨hf, rfl⟩, h⟩ := h
    by_cases heq : src = dst
    · rw [if_pos heq] at h
      cases h
    · rw [if_neg heq] at h
      refine ⟨heq, f, hf, ?_⟩
      cases fault with
      | none => cases h; exact .inl ⟨rfl, rfl⟩
      | refused e => cases h
      | torn n now e => cases h
      | corrupt b => cases h; exact .inr ⟨b, rfl, rfl⟩
  · obtain ⟨hne, f, hf, ⟨rfl, rfl⟩ | ⟨b, rfl, rfl⟩⟩ := h
    · exact ⟨f, fs, ⟨hf, rfl⟩, by rw [if_neg hne]; rfl⟩
    · exact ⟨f, fs, ⟨hf, rfl⟩, by rw [if_neg hne]; rfl⟩

theorem copy2_error {fault : CopyFault} (h : copy2 env fault src dst fs = .error e fs') (hne : src ≠ dst)
    (hsrc : fs.read src = some f) :
    fault = .refused e ∧ fs' = fs ∨ ∃ n now, fault = .torn n now e ∧ fs' = fs.write dst ⟨f.bytes.take n, now⟩ := by
  unfold copy2 at h
  rw [bind_of_ok (fetch_ok.mpr ⟨hsrc, rfl⟩), if_neg hne] at h
  cases fault with
  | none => cases h
  | refused e => cases h; exact .inl ⟨rfl, rfl⟩
  | torn n now e => cases h; exact .inr ⟨n, now, rfl, rfl⟩
  | corrupt b => cases h

theorem copy2_self (env : Env) (fault : CopyFault) (hsrc : fs.read src = some f) :
    copy2 env fault src src fs = .error (env.sameFile src) fs := by
  simp only [copy2, if_true]
  rw [bind_of_ok (fetch_ok.mpr ⟨hsrc, rfl⟩)]
  rfl

theorem sha256Of_eq (H : Hash.Incremental) (b : Bytes) : sha256Of H b = H.digest b := by
  rw [sha256Of, H.feed_readsOf (by decide) _ _ _ (Nat.le_refl _)]
  rfl

theorem computeSha256_ok {sha : String} : computeSha256 env fault p fs = .ok sha fs' ↔
    fault = none ∧ ∃ f, fs.read p = some f ∧ sha = env.sha.digest f.bytes ∧ fs' = fs := by
  refine fetchThen_ok.trans ?_
  simp only [pure_apply, sha256Of_eq, EStateM.Result.ok.injEq, eq_comm]

theorem sha256Reads_eq (H : Hash.Incremental) {b : Bytes} (r : FileReads b) {fuel : Nat} (hfuel : b.length < fuel) :
    sha256Reads H r.read fuel = some (H.digest b) := by
  have hle := r.length_chunks_le
  rw [sha256Reads, H.drain_reading r fuel 0 H.init (by omega) (Nat.zero_le _), List.drop_zero, r.whole]
  rfl

/-- The hash of a file is what any way of reading it gives. -/
theorem computeSha256_reads {sha : String} (hf : fs.read p = some f) (r : FileReads f.bytes) {fuel : Nat}
    (hfuel : f.bytes.length < fuel) :
    computeSha256 env none p fs = .ok sha fs ↔ sha256Reads env.sha r.read fuel = some sha := by
  rw [computeSha256_ok, sha256Reads_eq env.sha r hfuel, Option.some.injEq]
  refine ⟨fun h => ?_, fun h => ⟨rfl, f, hf, h.symm, rfl⟩⟩
  obtain ⟨_, g, hg, rfl, _⟩ := h
  rw [hf, Option.some.injEq] at hg
  rw [hg]

/-- **Streaming a file through the hash is hashing it whole.** However the reads split the
content, the loop ends, within one read a byte and the empty one, with the hash of the
whole; so equal bytes get equal results. -/
theorem compute_sha256_of_any_reads (H : Hash.Incremental) (b₁ b₂ : Bytes) (r₁ : FileReads b₁) (r₂ : FileReads b₂) :
    (∀ fuel, b₁.length < fuel → sha256Reads H r₁.read fuel = some (H.digest b₁)) ∧
      (b₁ = b₂ → ∀ fuel, b₁.length < fuel → sha256Reads H r₁.read fuel = sha256Reads H r₂.read fuel) := by
  refine ⟨fun fuel hfuel => sha256Reads_eq H r₁ hfuel, ?_⟩
  rintro rfl fuel hfuel
  rw [sha256Reads_eq H r₁ hfuel, sha256Reads_eq H r₂ hfuel]

/-- Two bytes, read one at a time and read at once. -/
theorem compute_sha256_of_any_reads_split :
    sha256Reads benchSha (fun i => [[0x61], [0x62]][i]?.getD []) 3 = some (benchSha.digest [0x61, 0x62]) ∧
      sha256Reads benchSha (fun i => [[0x61], [0x62]][i]?.getD []) 3 =
        sha256Reads benchSha (fun i => [[0x61, 0x62]][i]?.getD []) 3 := by
  have h := compute_sha256_of_any_reads benchSha [0x61, 0x62] [0x61, 0x62]
    ⟨[[0x61], [0x62]], by decide, by decide, rfl⟩ ⟨[[0x61, 0x62]], by decide, by decide, rfl⟩
  exact ⟨h.1 3 (by decide), h.2 rfl 3 (by decide)⟩

theorem computeSha256_unchanged (h : computeSha256 env fault p fs = .error e fs') : fs' = fs :=
  (fetchThen_error h fun _ _ => nofun).1

theorem computeSha256_error (h : computeSha256 env fault p fs = .error e fs') (hp : fs.read p = some f) :
    fs' = fs ∧ fault = some e :=
  fetchThen_fault h (fun _ _ => nofun) hp

theorem CopyFault.Writes.of_ok {fault : CopyFault} (h : copy2 env fault src dst fs = .ok u fs')
    (hsrc : fs.read src = some f) : ∃ w, fault.Writes f w ∧ fs' = fs.write dst w := by
  obtain ⟨-, g, hg, h⟩ := copy2_ok.mp h
  rw [hsrc, Option.some.injEq] at hg
  subst hg
  rcases h with ⟨rfl, rfl⟩ | ⟨b, rfl, rfl⟩
  · exact ⟨f, .faithful, rfl⟩
  · exact ⟨_, .other b, rfl⟩

theorem CopyFault.Writes.not_refused {fault : CopyFault} {w : File} (h : fault.Writes f w) :
    fault.isRefused = false := by
  cases h <;> rfl

theorem CopyFault.Writes.honest {fault : CopyFault} {w : File} (h : fault.Writes f w)
    (hh : fault.Honest) :
    w = f := by
  cases h with
  | faithful => rfl
  | other b => exact absurd rfl (hh b)

theorem CopyFault.Writes.returns {fault : CopyFault} {w : File} (h : fault.Writes f w) :
    fault.returns = true := by
  cases h <;> rfl

theorem shutilMove_renames {fl : MoveFaults} (hmove : fl.renames (env.sameDev src dst.dir))
    (hsrc : fs.read src = some f) : shutilMove env fl src dst fs = .ok () ((fs.remove src).write dst f) :=
  tryCatch_of_ok (rename_ok.mpr ⟨hmove, f, hsrc, rfl⟩)

theorem shutilMove_copies {fl : MoveFaults} (hmove : ¬ fl.renames (env.sameDev src dst.dir)) :
    shutilMove env fl src dst fs = (do copy2 env fl.copy2 src dst; unlink env fl.unlink src) fs := by
  cases hr : rename env fl.rename src dst fs with
  | ok u fs' => exact absurd (rename_ok.mp hr).1 hmove
  | error e fs' =>
    cases rename_error hr
    exact tryCatch_of_error hr

theorem shutilMove_ok {fl : MoveFaults} (h : shutilMove env fl src dst fs = .ok u fs')
    (hsrc : fs.read src = some f) :
    (fl.renames (env.sameDev src dst.dir) ∧ fs' = (fs.remove src).write dst f) ∨
    (¬ fl.renames (env.sameDev src dst.dir) ∧ ∃ w, fl.copy2.Writes f w ∧ fl.unlink = none ∧
      fs' = (fs.write dst w).remove src) := by
  by_cases hmove : fl.renames (env.sameDev src dst.dir)
  · rw [shutilMove_renames hmove hsrc] at h
    cases h
    exact .inl ⟨hmove, rfl⟩
  · rw [shutilMove_copies hmove] at h
    obtain ⟨_, t, hcp, hul⟩ := bind_ok.mp h
    obtain ⟨w, hw, rfl⟩ := CopyFault.Writes.of_ok hcp hsrc
    obtain ⟨hfault, _, rfl⟩ := unlink_ok.mp hul
    exact .inr ⟨hmove, w, hw, hfault, rfl⟩

theorem shutilMove_error {fl : MoveFaults} (h : shutilMove env fl src dst fs = .error e fs') (hne : src ≠ dst)
    (hsrc : fs.read src = some f) :
    ¬ fl.renames (env.sameDev src dst.dir) ∧ ((fl.copy2 = .refused e ∧ fs' = fs) ∨
      (∃ n now, fl.copy2 = .torn n now e ∧ fs' = fs.write dst ⟨f.bytes.take n, now⟩) ∨
      ∃ w, fl.copy2.Writes f w ∧ fl.unlink = some e ∧ fs' = fs.write dst w) := by
  by_cases hmove : fl.renames (env.sameDev src dst.dir)
  · rw [shutilMove_renames hmove hsrc] at h
    cases h
  refine ⟨hmove, ?_⟩
  rw [shutilMove_copies hmove] at h
  rcases bind_error.mp h with hcp | ⟨_, t, hcp, hul⟩
  · rcases copy2_error hcp hne hsrc with hrefused | htorn
    · exact .inl hrefused
    · exact .inr (.inl htorn)
  · obtain ⟨w, hw, rfl⟩ := CopyFault.Writes.of_ok hcp hsrc
    obtain ⟨rfl, hfault⟩ := unlink_error hul ((FS.read_write_ne hne).trans hsrc)
    exact .inr (.inr ⟨w, hw, hfault, rfl⟩)

/-- **How a `shutil.move` ends**, with the source there. -/
theorem shutilMove_ends (env : Env) (fl : MoveFaults) (hne : src ≠ dst) (hsrc : fs.read src = some f) :
    (fl.stopsEarly (env.sameDev src dst.dir) ∧ after (shutilMove env fl src dst) fs = fs) ∨
    (¬ fl.stopsEarly (env.sameDev src dst.dir) ∧
      MoveEnd env fl src dst f fs (after (shutilMove env fl src dst) fs)) := by
  have hgo : fl.copy2.isRefused = false → ¬ fl.stopsEarly (env.sameDev src dst.dir) := by
    intro hc hstop
    cases hc.symm.trans hstop.2
  cases h : shutilMove env fl src dst fs with
  | ok u fs' =>
    rw [after_ok h]
    rcases shutilMove_ok h hsrc with ⟨hmove, rfl⟩ | ⟨hmove, w, hw, hul, rfl⟩
    · exact .inr ⟨fun hstop => hstop.1 hmove, .renamed hmove⟩
    · exact .inr ⟨hgo hw.not_refused, .copied hmove hw hul⟩
  | error e fs' =>
    rw [after_error h]
    obtain ⟨hmove, ⟨hc, rfl⟩ | ⟨n, now, hc, rfl⟩ | ⟨w, hw, hul, rfl⟩⟩ := shutilMove_error h hne hsrc
    · exact .inl ⟨⟨hmove, by rw [hc]; rfl⟩, rfl⟩
    · exact .inr ⟨hgo (by rw [hc]; rfl), .torn hmove hc⟩
    · exact .inr ⟨hgo hw.not_refused, .undeleted hmove hw hul⟩

theorem MoveEnd.source {fl : MoveFaults} (h : MoveEnd env fl src dst f fs fs') (hne : src ≠ dst)
    (hsrc : fs.read src = some f) : fs'.read src = some f ∨ fs'.read src = none := by
  cases h with
  | renamed => right; rw [FS.read_write_ne hne, FS.read_remove_self]
  | torn | undeleted => left; rw [FS.read_write_ne hne, hsrc]
  | copied => right; rw [FS.read_remove_self]

theorem MoveEnd.gone (h : MoveEnd env {} src dst f fs fs') (hne : src ≠ dst) : fs'.read src = none := by
  cases h with
  | renamed => rw [FS.read_write_ne hne, FS.read_remove_self]
  | torn _ hc => cases hc
  | copied => rw [FS.read_remove_self]
  | undeleted _ _ hu => cases hu

theorem MoveEnd.faultless (h : MoveEnd env {} src dst f fs fs') (hdev : ¬ env.sameDev src dst.dir) :
    fs' = (fs.write dst f).remove src := by
  cases h with
  | renamed hmove => exact absurd hmove.1 hdev
  | torn _ hc => cases hc
  | copied _ hw _ => cases hw; rfl
  | undeleted _ _ hu => cases hu

theorem MoveEnd.frame {fl : MoveFaults} (h : MoveEnd env fl src dst f fs fs') {p : Path} (hs : p ≠ src)
    (hd : p ≠ dst) : fs'.read p = fs.read p := by
  cases h <;> simp only [FS.read_write_ne hd, FS.read_remove_ne hs]

theorem MoveEnd.arrives {fl : MoveFaults} (h : MoveEnd env fl src dst f fs fs') (hne : src ≠ dst) :
    ∃ g, fs'.read dst = some g := by
  cases h with
  | renamed => exact ⟨f, FS.read_write_self⟩
  | torn | undeleted => exact ⟨_, FS.read_write_self⟩
  | copied => exact ⟨_, by rw [FS.read_remove_ne hne.symm, FS.read_write_self]⟩

theorem contents_rename (hsrc : fs.read src = some f) :
    Replica.Carry src dst fs.contents ((fs.remove src).write dst f).contents := by
  rw [FS.contents_write, FS.contents_remove]
  exact .whole (FS.contents_of_read hsrc)

theorem contents_copy_unlink (hne : src ≠ dst) (hsrc : fs.read src = some f) :
    Replica.Carry src dst fs.contents ((fs.write dst f).remove src).contents := by
  rw [FS.contents_remove, FS.contents_write, Function.update_comm hne.symm]
  exact .whole (FS.contents_of_read hsrc)

theorem contents_torn (hsrc : fs.read src = some f) (n : Nat) (now : Time) :
    Replica.Carry src dst fs.contents (fs.write dst ⟨f.bytes.take n, now⟩).contents := by
  rw [FS.contents_write]
  exact .part n (FS.contents_of_read hsrc)

theorem contents_copy (hsrc : fs.read src = some f) :
    Replica.Carry src dst fs.contents (fs.write dst f).contents := by
  rw [FS.contents_write]
  have h : f.bytes = f.bytes.take f.bytes.length := (List.take_length).symm
  rw [h]
  exact .part _ (FS.contents_of_read hsrc)

/-- A move whose copy writes what it is given carries the source to the destination. -/
theorem MoveEnd.carry {fl : MoveFaults} (h : MoveEnd env fl src dst f fs fs') (hh : fl.copy2.Honest)
    (hne : src ≠ dst) (hsrc : fs.read src = some f) :
    Replica.Carry src dst fs.contents fs'.contents := by
  cases h with
  | renamed => exact contents_rename hsrc
  | torn => exact contents_torn hsrc _ _
  | copied _ hw => rw [hw.honest hh]; exact contents_copy_unlink hne hsrc
  | undeleted _ hw => rw [hw.honest hh]; exact contents_copy hsrc

theorem shutilMove_carry {fl : MoveFaults} (hh : fl.copy2.Honest) (hne : src ≠ dst)
    (hsrc : fs.read src = some f) :
    Replica.Carry src dst fs.contents (after (shutilMove env fl src dst) fs).contents := by
  rcases shutilMove_ends env fl hne hsrc with ⟨_, h⟩ | ⟨_, h⟩
  · rw [h]; exact .nothing
  · exact h.carry hh hne hsrc

end

end SeerSensor
