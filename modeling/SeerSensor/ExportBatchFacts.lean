/-
What a pass does, file by file. A transfer touches its own two paths, and the
files of the backlog have distinct names, so no file's turn can tell whether
the turns before it took place: each is decided by the files the pass found
(`turnFs`, `turnReceipt`, `turnCall`), and a pass is the sum of its turns
(`exportLoop_ok`).
-/
import SeerSensor.ExportBatch
import SeerSensor.TransferFacts

namespace SeerSensor

open Raise

section
variable {env : Env} {rotate : ℚ} {inp : BatchInput} {dest : Dir} {n : Name} {ns : List Name}
  {fs gs : FS} {d d' : Disk}
  {acc acc' : Batch}

/-- The guard says no to the file's turn. -/
def turnActive (rotate : ℚ) (inp : BatchInput) (fs : FS) (n : Name) : Bool :=
  isFileActive rotate (inp.turn n).getmtime (inp.turn n).now ⟨.backlog, n⟩ fs

/-- What the transfer of the file returns and leaves. -/
def turnOut (env : Env) (inp : BatchInput) (dest : Dir) (fs : FS) (n : Name) : TransferResult × FS :=
  transferFile env (inp.turn n).transfer ⟨.backlog, n⟩ dest true fs

/-- The files after the turn. -/
def turnFs (env : Env) (rotate : ℚ) (inp : BatchInput) (dest : Dir) (fs : FS) (n : Name) : FS :=
  if turnActive rotate inp fs n then fs else (turnOut env inp dest fs n).2

/-- The call the turn makes. -/
def turnCall (env : Env) (rotate : ℚ) (inp : BatchInput) (dest : Dir) (fs : FS) (n : Name) :
    Option Call :=
  if turnActive rotate inp fs n then none
  else some ⟨⟨.backlog, n⟩, dest, (turnOut env inp dest fs n).1.success⟩

/-- What the turn adds to `transferred`. -/
def turnReceipt (env : Env) (rotate : ℚ) (inp : BatchInput) (dest : Dir) (fs : FS) (n : Name) :
    Option (Name × String) :=
  if turnActive rotate inp fs n then none
  else if (turnOut env inp dest fs n).1.success then
    some (n, (turnOut env inp dest fs n).1.sha256.getD "")
  else none

/-- What the turn adds to the log. -/
def turnEntry (env : Env) (rotate : ℚ) (inp : BatchInput) (dest : Dir) (fs : FS) (n : Name) :
    Option LogEntry :=
  if turnActive rotate inp fs n then none
  else some (logEntry inp dest n (turnOut env inp dest fs n).1
    ((turnOut env inp dest fs n).2.read ⟨.backlog, n⟩))

/-- The two paths of a file's turn. -/
def turnPaths (dest : Dir) (n : Name) (p : Path) : Prop := p = ⟨.backlog, n⟩ ∨ p = ⟨dest, n⟩

theorem turnPaths_name {p : Path} (h : turnPaths dest n p) : p.name = n := by
  rcases h with rfl | rfl <;> rfl

theorem turnFs_frame {p : Path} (hp : ¬ turnPaths dest n p) :
    (turnFs env rotate inp dest fs n).read p = fs.read p := by
  unfold turnFs
  split
  · rfl
  · exact transferFile_frame env _ (fun he => hp (.inl he)) (fun he => hp (.inr he))

theorem turnActive_found (h : turnActive rotate inp fs n = false) :
    ∃ f, fs.read ⟨.backlog, n⟩ = some f := by
  unfold turnActive isFileActive at h
  cases hf : fs.read ⟨.backlog, n⟩ with
  | none => rw [hf] at h; cases hm : (inp.turn n).getmtime <;> rw [hm] at h <;> cases h
  | some f => exact ⟨f, rfl⟩

/-- A turn whose copy writes what it is given carries the file to the drive, or
part of it, or nothing. -/
theorem turnFs_carry (hh : (inp.turn n).transfer.Honest) (hdest : dest ≠ .backlog) :
    Replica.Carry ⟨.backlog, n⟩ ⟨dest, n⟩ fs.contents (turnFs env rotate inp dest fs n).contents := by
  have hne : (⟨.backlog, n⟩ : Path) ≠ ⟨dest, n⟩ := Path.ne_of_dir hdest.symm
  unfold turnFs turnOut
  split
  · exact .nothing
  next hact =>
    obtain ⟨f, hf⟩ := turnActive_found (by simpa using hact)
    rcases transferFile_ends env (inp.turn n).transfer hne hf with ⟨_, e, he⟩ | ⟨_, r, fs', he, hend⟩
    · rw [he]; exact .nothing
    · rw [he]; exact hend.carry hh hne hf

theorem turnFs_stops (hdest : dest ≠ .backlog)
    (hstop : (inp.turn n).transfer.stopsEarly (env.sameDev ⟨.backlog, n⟩ dest)) :
    turnFs env rotate inp dest fs n = fs := by
  have hne : (⟨.backlog, n⟩ : Path) ≠ ⟨dest, n⟩ := Path.ne_of_dir hdest.symm
  unfold turnFs turnOut
  split
  · rfl
  next hact =>
    obtain ⟨f, hf⟩ := turnActive_found (by simpa using hact)
    rcases transferFile_ends env (inp.turn n).transfer hne hf with ⟨_, e, he⟩ | ⟨hgo, _⟩
    · rw [he]
    · exact absurd hstop hgo

theorem turnFs_reaches {f : File} (hh : (inp.turn n).transfer.Honest) (hdest : dest ≠ .backlog)
    (hact : turnActive rotate inp fs n = false)
    (hgo : ¬ (inp.turn n).transfer.stopsEarly (env.sameDev ⟨.backlog, n⟩ dest))
    (hf : fs.read ⟨.backlog, n⟩ = some f) :
    ∃ k, (turnFs env rotate inp dest fs n).contents ⟨dest, n⟩ = some (f.bytes.take k) := by
  have hne : (⟨.backlog, n⟩ : Path) ≠ ⟨dest, n⟩ := Path.ne_of_dir hdest.symm
  rcases transferFile_ends env (inp.turn n).transfer hne hf with ⟨hstop, _⟩ | ⟨_, r, fs', he, hend⟩
  · exact absurd hstop hgo
  · simp only [turnFs, turnOut, hact, Bool.false_eq_true, if_false, he]
    exact hend.reaches hh hne

theorem turn_congr (env : Env) (rotate : ℚ) (inp : BatchInput) (h : FS.Agree (turnPaths dest n) fs gs) :
    turnActive rotate inp fs n = turnActive rotate inp gs n ∧
    (turnOut env inp dest fs n).1 = (turnOut env inp dest gs n).1 ∧
    FS.Agree (turnPaths dest n) (turnOut env inp dest fs n).2 (turnOut env inp dest gs n).2 := by
  have hsrc : turnPaths dest n ⟨.backlog, n⟩ := .inl rfl
  obtain ⟨hres, hagree⟩ := transferFile_local env (inp.turn n).transfer true hsrc (.inr rfl) h
  refine ⟨?_, hres, hagree⟩
  unfold turnActive isFileActive
  rw [h _ (.inl rfl)]

theorem turnFs_congr (h : FS.Agree (turnPaths dest n) fs gs) :
    FS.Agree (turnPaths dest n) (turnFs env rotate inp dest fs n)
      (turnFs env rotate inp dest gs n) := by
  obtain ⟨hact, -, hagree⟩ := turn_congr env rotate inp h
  unfold turnFs
  rw [hact]
  split
  · exact h
  · exact hagree

theorem turnCall_congr (h : FS.Agree (turnPaths dest n) fs gs) :
    turnCall env rotate inp dest fs n = turnCall env rotate inp dest gs n := by
  obtain ⟨hact, hres, -⟩ := turn_congr env rotate inp h
  unfold turnCall
  rw [hact, hres]

theorem turnReceipt_congr (h : FS.Agree (turnPaths dest n) fs gs) :
    turnReceipt env rotate inp dest fs n = turnReceipt env rotate inp dest gs n := by
  obtain ⟨hact, hres, -⟩ := turn_congr env rotate inp h
  unfold turnReceipt
  rw [hact, hres]

theorem turnEntry_congr (h : FS.Agree (turnPaths dest n) fs gs) :
    turnEntry env rotate inp dest fs n = turnEntry env rotate inp dest gs n := by
  obtain ⟨hact, hres, hagree⟩ := turn_congr env rotate inp h
  unfold turnEntry
  rw [hact, hres, hagree _ (.inl rfl)]

/-! ## One turn, then all of them -/

/-- The disk after the turn of `n`, receipts untouched. -/
def turnDisk (env : Env) (rotate : ℚ) (inp : BatchInput) (dest : Dir) (d : Disk) (n : Name) : Disk :=
  { d with
    fs := turnFs env rotate inp dest d.fs n
    calls := d.calls ++ (turnCall env rotate inp dest d.fs n).toList }

/-- A turn returns with its receipt and entry added, or raises where the size
of a file still at the source is read. -/
theorem exportTurn_cases (env : Env) (rotate : ℚ) (inp : BatchInput) (dest : Dir) (acc : Batch)
    (n : Name) (d : Disk) :
    (∃ acc', exportTurn env rotate inp dest acc n d = .ok acc' (turnDisk env rotate inp dest d n) ∧
      acc'.transferred = acc.transferred ++ (turnReceipt env rotate inp dest d.fs n).toList ∧
      acc'.entries = acc.entries ++ (turnEntry env rotate inp dest d.fs n).toList) ∨
    ∃ e, (inp.turn n).stat = some e ∧
      exportTurn env rotate inp dest acc n d = .error e (turnDisk env rotate inp dest d n) := by
  cases hact : isFileActive rotate (inp.turn n).getmtime (inp.turn n).now ⟨.backlog, n⟩ d.fs with
  | true =>
    left
    refine ⟨acc, ?_, ?_, ?_⟩
    · simp only [exportTurn, hact, if_true, turnDisk, turnFs, turnCall, turnActive,
        Option.toList_none, List.append_nil]
    · simp [turnReceipt, turnActive, hact]
    · simp [turnEntry, turnActive, hact]
  | false =>
    have hdisk : turnDisk env rotate inp dest d n =
        { d with
          fs := (turnOut env inp dest d.fs n).2
          calls := d.calls ++ [⟨⟨.backlog, n⟩, dest, (turnOut env inp dest d.fs n).1.success⟩] } := by
      simp [turnDisk, turnFs, turnCall, turnActive, hact]
    have hadd : ∃ acc', acc' = acc.add n (turnOut env inp dest d.fs n).1
          (logEntry inp dest n (turnOut env inp dest d.fs n).1
            ((turnOut env inp dest d.fs n).2.read ⟨.backlog, n⟩)) ∧
        acc'.transferred = acc.transferred ++ (turnReceipt env rotate inp dest d.fs n).toList ∧
        acc'.entries = acc.entries ++ (turnEntry env rotate inp dest d.fs n).toList := by
      refine ⟨_, rfl, ?_, ?_⟩
      · simp only [Batch.add, turnReceipt, turnActive, hact, Bool.false_eq_true, if_false]
        split <;> rfl
      · simp [Batch.add, turnEntry, turnActive, hact]
    obtain ⟨acc', hacc, htransferred, hentries⟩ := hadd
    -- an entry is made unless the source is still there and its size is refused
    have hreturn (hok : (inp.turn n).stat = none ∨
        (turnOut env inp dest d.fs n).2.read ⟨.backlog, n⟩ = none) :
        exportTurn env rotate inp dest acc n d = .ok acc' (turnDisk env rotate inp dest d n) := by
      rw [hacc, hdisk]
      simp only [exportTurn, hact, Bool.false_eq_true, if_false]
      rcases hok with hstat | hgone
      · rw [hstat]; rfl
      · unfold turnOut at hgone ⊢
        rw [hgone]
        cases (inp.turn n).stat <;> rfl
    cases hstat : (inp.turn n).stat with
    | none => exact .inl ⟨acc', hreturn (.inl hstat), htransferred, hentries⟩
    | some e =>
      cases hhere : (turnOut env inp dest d.fs n).2.read ⟨.backlog, n⟩ with
      | none => exact .inl ⟨acc', hreturn (.inr hhere), htransferred, hentries⟩
      | some f =>
        refine .inr ⟨e, rfl, ?_⟩
        unfold turnOut at hhere
        rw [hdisk]
        simp only [exportTurn, hact, Bool.false_eq_true, if_false, hstat, hhere]
        rfl

/-- What every turn preserves the loop preserves, also one that raises. -/
theorem exportLoop_preserves {P : FS → Prop}
    (hP : ∀ n ∈ ns, ∀ fs, P fs → P (turnFs env rotate inp dest fs n))
    (acc : Batch) (hd : P d.fs) : P (after (exportLoop env rotate inp dest ns acc) d).fs := by
  induction ns generalizing d acc with
  | nil => exact hd
  | cons n ns ih =>
    have hloop : exportLoop env rotate inp dest (n :: ns) acc =
        exportTurn env rotate inp dest acc n >>= exportLoop env rotate inp dest ns := rfl
    have hn := hP n (by simp) d.fs hd
    rcases exportTurn_cases env rotate inp dest acc n d with ⟨acc', h, -, -⟩ | ⟨e, -, h⟩
    · rw [hloop, after, bind_of_ok h]
      exact ih (fun m hm => hP m (by simp [hm])) acc' hn
    · rw [hloop, after_error (bind_of_error h)]
      exact hn

theorem exportLoop_within {R : Disk → Disk → Prop} (hrefl : ∀ d, R d d)
    (htrans : ∀ d₁ d₂ d₃, R d₁ d₂ → R d₂ d₃ → R d₁ d₃)
    (hturn : ∀ n ∈ ns, ∀ d, R d (turnDisk env rotate inp dest d n)) (acc : Batch) :
    Within R (exportLoop env rotate inp dest ns acc) := by
  induction ns generalizing acc with
  | nil => exact hrefl
  | cons n ns ih =>
    refine within_bind htrans (fun d => ?_) fun acc' => ih (fun m hm => hturn m (by simp [hm])) acc'
    rcases exportTurn_cases env rotate inp dest acc n d with ⟨_, h, -, -⟩ | ⟨_, -, h⟩
    · rw [after_ok h]
      exact hturn n (by simp) d
    · rw [after_error h]
      exact hturn n (by simp) d

/-- **A pass is the sum of its turns**, each as the files were when it began. -/
theorem exportLoop_ok (hns : ns.Nodup) (h : exportLoop env rotate inp dest ns acc d = .ok acc' d') :
    (∀ p, (∀ n ∈ ns, ¬ turnPaths dest n p) → d'.fs.read p = d.fs.read p) ∧
    (∀ n ∈ ns, FS.Agree (turnPaths dest n) d'.fs (turnFs env rotate inp dest d.fs n)) ∧
    d'.calls = d.calls ++ ns.filterMap (turnCall env rotate inp dest d.fs) ∧
    acc'.transferred = acc.transferred ++ ns.filterMap (turnReceipt env rotate inp dest d.fs) ∧
    acc'.entries = acc.entries ++ ns.filterMap (turnEntry env rotate inp dest d.fs) ∧
    d'.manifest = d.manifest ∧ d'.transferLog = d.transferLog := by
  induction ns generalizing d acc with
  | nil =>
    cases h
    simp
  | cons n ns ih =>
    obtain ⟨hn, hns⟩ := List.nodup_cons.mp hns
    obtain ⟨acc₁, d₁, hturn, hrest⟩ := bind_ok.mp h
    rcases exportTurn_cases env rotate inp dest acc n d with ⟨acc₂, hok, htr, hent⟩ | ⟨e, -, herr⟩
    swap
    · rw [herr] at hturn; cases hturn
    rw [hok] at hturn
    cases hturn
    obtain ⟨hframe, hown, hcalls, htransferred, hentries, hman, hlog⟩ := ih hns hrest
    -- the first turn is out of sight of the others
    have hagree : ∀ m ∈ ns, FS.Agree (turnPaths dest m) (turnFs env rotate inp dest d.fs n) d.fs := by
      intro m hm p hp
      refine turnFs_frame fun hp' => hn ?_
      rw [← turnPaths_name hp', turnPaths_name hp]
      exact hm
    have hsame : ∀ {β : Type} (φ : FS → Name → Option β),
      (∀ {fs gs : FS} {m : Name}, FS.Agree (turnPaths dest m) fs gs →
        φ fs m = φ gs m) →
        ns.filterMap (φ (turnDisk env rotate inp dest d n).fs) = ns.filterMap (φ d.fs) :=
      fun φ hφ => List.filterMap_congr fun m hm => hφ (hagree m hm)
    refine ⟨fun p hp => ?_, fun m hm => ?_, ?_, ?_, ?_, hman, hlog⟩
    · rw [hframe p fun m hm => hp m (by simp [hm])]
      exact turnFs_frame (hp n (by simp))
    · rcases List.mem_cons.mp hm with rfl | hm
      · intro p hp
        refine hframe p fun k hk hp' => hn ?_
        rw [← turnPaths_name hp, turnPaths_name hp']
        exact hk
      · exact fun p hp => (hown m hm p hp).trans (turnFs_congr (hagree m hm) p hp)
    · rw [hcalls, hsame _ turnCall_congr, turnDisk, List.append_assoc]
      cases hc : turnCall env rotate inp dest d.fs n <;> simp [hc]
    · rw [htransferred, hsame _ turnReceipt_congr, htr, List.append_assoc]
      cases hc : turnReceipt env rotate inp dest d.fs n <;> simp [hc]
    · rw [hentries, hsame _ turnEntry_congr, hent, List.append_assoc]
      cases hc : turnEntry env rotate inp dest d.fs n <;> simp [hc]

/-! ## The whole pass -/

theorem mem_backlogPcaps : n ∈ backlogPcaps fs ↔ (∃ f, fs.read ⟨.backlog, n⟩ = some f) ∧
    globPcapAny n = true := by
  rw [backlogPcaps, List.mem_insertionSort, List.mem_filter, FS.mem_names]

theorem backlogPcaps_nodup (fs : FS) : (backlogPcaps fs).Nodup :=
  (List.perm_insertionSort _ _).nodup_iff.mpr ((fs.names_nodup .backlog).filter _)

theorem exportBatch_listed (env : Env) (rotate : ℚ) (drive : Drive) (d : Disk)
    (hglob : inp.glob = none) :
    exportBatch env rotate inp drive d = if backlogPcaps d.fs = [] then .ok (0, 0) d else
      (exportLoop env rotate inp (.pcap drive inp.date) (backlogPcaps d.fs) {} >>= fun acc =>
        modify (writeReceipts inp drive (.pcap drive inp.date) acc) >>= fun _ =>
          pure (acc.successCount, acc.failCount)) d := by
  simp only [exportBatch]
  rw [hglob, bind_of_ok raiseIf_none, bind_of_ok get_apply]
  split <;> rfl

theorem exportBatch_ok {drive : Drive} {counts : Nat × Nat}
    (h : exportBatch env rotate inp drive d = .ok counts d') :
    ∃ acc d₁, exportLoop env rotate inp (.pcap drive inp.date) (backlogPcaps d.fs) {} d = .ok acc d₁ ∧
      d' = writeReceipts inp drive (.pcap drive inp.date) acc d₁ ∧
        counts = (acc.successCount, acc.failCount) := by
  have hglob : inp.glob = none := by
    obtain ⟨_, _, hraise, -⟩ := bind_ok.mp h
    exact (raiseIf_ok.mp hraise).1
  rw [exportBatch_listed env rotate drive d hglob] at h
  split at h
  · next hnone =>
    cases h
    rw [hnone]
    exact ⟨{}, d, rfl, rfl, rfl⟩
  · obtain ⟨acc, d₁, hloop, h⟩ := bind_ok.mp h
    rw [bind_of_ok (modify_apply _)] at h
    cases h
    exact ⟨acc, d₁, hloop, rfl, rfl⟩

/-- Where the listing does not raise and every size can be read, a pass returns. -/
theorem exportLoop_returns (env : Env) (rotate : ℚ) (dest : Dir)
    (hstat : ∀ n ∈ ns, (inp.turn n).stat = none) (acc : Batch) (d : Disk) :
    ∃ acc' d', exportLoop env rotate inp dest ns acc d = .ok acc' d' := by
  induction ns generalizing acc d with
  | nil => exact ⟨acc, d, rfl⟩
  | cons n ns ih =>
    rcases exportTurn_cases env rotate inp dest acc n d with ⟨acc₁, h, -, -⟩ | ⟨e, he, -⟩
    · obtain ⟨acc', d', hrest⟩ := ih (fun m hm => hstat m (by simp [hm])) acc₁
        (turnDisk env rotate inp dest d n)
      exact ⟨acc', d', (bind_of_ok h).trans hrest⟩
    · rw [hstat n (by simp)] at he; cases he

theorem exportBatch_returns (env : Env) (rotate : ℚ) (drive : Drive) (hglob : inp.glob = none)
    (hstat : ∀ n, (inp.turn n).stat = none) (d : Disk) :
    ∃ counts d', exportBatch env rotate inp drive d = .ok counts d' := by
  rw [exportBatch_listed env rotate drive d hglob]
  split
  · exact ⟨_, _, rfl⟩
  · obtain ⟨acc, d', h⟩ := exportLoop_returns env rotate (.pcap drive inp.date) (fun n _ => hstat n)
      {} d
    rw [bind_of_ok h]
    exact ⟨_, _, rfl⟩

@[simp] theorem writeReceipts_fs {drive : Drive} : (writeReceipts inp drive dest acc d).fs = d.fs := by
  unfold writeReceipts
  split <;> split <;> rfl

@[simp] theorem writeReceipts_calls {drive : Drive} :
    (writeReceipts inp drive dest acc d).calls = d.calls := by
  unfold writeReceipts
  split <;> split <;> rfl

theorem writeReceipts_manifest {drive : Drive} : (writeReceipts inp drive dest acc d).manifest =
    if acc.transferred = [] then d.manifest else
      (writeManifest inp dest acc.transferred d).manifest := by
  unfold writeReceipts
  split <;> split <;> rfl

/-- The calls a pass made, as its files were when it began. -/
theorem exportBatch_calls {drive : Drive} {counts : Nat × Nat}
    (h : exportBatch env rotate inp drive d = .ok counts d') :
    d'.calls = d.calls ++ (backlogPcaps d.fs).filterMap
      (turnCall env rotate inp (.pcap drive inp.date) d.fs) := by
  obtain ⟨acc, d₁, hloop, rfl, -⟩ := exportBatch_ok h
  obtain ⟨-, -, hcalls, -⟩ := exportLoop_ok (backlogPcaps_nodup d.fs) hloop
  rw [writeReceipts_calls, hcalls]

theorem exportBatch_error {drive : Drive} {e : String}
    (h : exportBatch env rotate inp drive d = .error e d') :
    d' = d ∨ exportLoop env rotate inp (.pcap drive inp.date) (backlogPcaps d.fs)
      {} d = .error e d' := by
  cases hglob : inp.glob with
  | some e' =>
    have hraise : exportBatch env rotate inp drive d = .error e' d :=
      bind_of_error (raiseIf_error.mpr ⟨hglob, rfl⟩)
    rw [hraise] at h
    cases h
    exact .inl rfl
  | none =>
    rw [exportBatch_listed env rotate drive d hglob] at h
    split at h
    · cases h
    · rcases bind_error.mp h with hloop | ⟨acc, d₁, -, hrest⟩
      · exact .inr hloop
      · rw [bind_of_ok (modify_apply _)] at hrest
        cases hrest

theorem exportBatch_preserves {drive : Drive} {P : FS → Prop}
    (hP : ∀ n ∈ backlogPcaps d.fs, ∀ fs, P fs →
      P (turnFs env rotate inp (.pcap drive inp.date) fs n)) (hd : P d.fs) :
    P (after (exportBatch env rotate inp drive) d).fs := by
  have hloop := exportLoop_preserves hP {} hd
  cases h : exportBatch env rotate inp drive d with
  | ok counts d' =>
    obtain ⟨acc, d₁, hl, rfl, -⟩ := exportBatch_ok h
    rw [after_ok h, writeReceipts_fs]
    rw [after_ok hl] at hloop
    exact hloop
  | error e d' =>
    rw [after_error h]
    rcases exportBatch_error h with rfl | hl
    · exact hd
    · rw [after_error hl] at hloop
      exact hloop

theorem exportLoop_error_log {e : String} (h : exportLoop env rotate inp dest ns acc d = .error e d') :
    d'.transferLog = d.transferLog := by
  induction ns generalizing d acc with
  | nil => cases h
  | cons n ns ih =>
    rcases exportTurn_cases env rotate inp dest acc n d with ⟨acc', hturn, -, -⟩ | ⟨e', -, hturn⟩
    · have hrest : exportLoop env rotate inp dest ns acc' (turnDisk env rotate inp dest d n)
        = .error e d' :=
        (bind_of_ok hturn).symm.trans h
      have hlog := ih hrest
      exact hlog
    · have hrest : EStateM.Result.error e' (turnDisk env rotate inp dest d n) = .error e d' :=
        (bind_of_error hturn).symm.trans h
      cases hrest
      rfl

theorem writeReceipts_log (inp : BatchInput) (drive : Drive) (dest : Dir) (acc : Batch) (d : Disk) :
    ∃ written, written ⊆ acc.entries ∧
    (writeReceipts inp drive dest acc d).transferLog drive = d.transferLog drive ++ written := by
  have hlog : ∀ d : Disk, (∃ written, written ⊆ acc.entries ∧
      (appendTransferLog inp drive acc.entries d).transferLog drive = d.transferLog drive ++
        written) := by
    intro d
    unfold appendTransferLog
    cases inp.log with
    | none => exact ⟨acc.entries, fun _ h => h, by simp⟩
    | refused e => exact ⟨[], by simp, by simp⟩
    | torn k j e => exact ⟨acc.entries.take k, List.take_subset k _, by simp⟩
  have hman : ∀ d : Disk, (writeManifest inp dest acc.transferred d).transferLog = d.transferLog :=
    fun _ => rfl
  unfold writeReceipts
  split <;> split
  · exact ⟨[], by simp, by simp⟩
  · exact hlog d
  · exact ⟨[], by simp, by rw [hman]; simp⟩
  · rw [← hman d]; exact hlog _

end

end SeerSensor
