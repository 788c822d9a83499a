/-
The backlog as a queue that is delivered at least once. Files arrive complete, each
under a name of its own that the exporter lists; turns of `export_batch` try them in
any order, on any drive and date, with any fault at any call, a copy that returns with
other bytes included, and a process that is killed is a turn that raised with no turn
after it.

What makes this safe is that across devices a transfer lets go of its source in one
place only, after the bytes at the destination are known (`source_or_delivered`), so
every file is whole in the backlog until it is whole on a drive. On one device that
rests on the rename, or on the copy that falls in for it, which nothing is compared
with. And since nothing of a failed turn is remembered, one pass that meets no fault
settles everything.
-/
import Mathlib.Tactic.Linarith
import SeerSensor.Survival

namespace SeerSensor.Retry

open Raise

/-- The disk, and every file that has come to the backlog. -/
structure Store where
  disk : Disk
  staged : List (Name × Bytes) := []

/-- Files come, and the exporter has its turns. -/
inductive Act where
  /-- A complete file comes, under a new name that matches `*.pcap*`. -/
  | stage (n : Name) (f : File)
  /-- One turn of a pass that began on the date `inp.date`. -/
  | turn (n : Name) (drive : Drive) (inp : BatchInput)

/-- A file that is not listed has no turn. -/
def step (env : Env) (rotate : ℚ) (s : Store) : Act → Option Store
  | .stage n f =>
    if n ∈ s.staged.map (·.1) ∨ globPcapAny n = false then none
    else some
      { disk := { s.disk with fs := s.disk.fs.write ⟨.backlog, n⟩ f }
        staged := s.staged ++ [(n, f.bytes)] }
  | .turn n drive inp =>
    if n ∈ backlogPcaps s.disk.fs then
      some { s with disk := after (exportTurn env rotate inp (.pcap drive inp.date) {} n) s.disk }
    else none

/-- What a transfer of `f` needs so as not to lose it: SHA-256 tells the file from what a
copy wrote in its place, and where the rename of one device raises, the copy that falls
in for it and that nothing is compared with is honest. -/
structure Told (env : Env) (fl : TransferFaults) (f : File) : Prop where
  compared : ∀ b, fl.copy2 = .corrupt b → env.sha.digest f.bytes = env.sha.digest b → b = f.bytes
  uncompared : fl.move.rename ≠ none → fl.move.copy2.Honest

/-- Of every turn. -/
def AllTold (env : Env) (s : Store) : Act → Prop
  | .stage _ _ => True
  | .turn n _ inp => ∀ f, s.disk.fs.read ⟨.backlog, n⟩ = some f → Told env (inp.turn n).transfer f

/-- Nothing has come yet. -/
structure Store.Start (s : Store) : Prop where
  staged : s.staged = []
  backlog : s.disk.fs.names .backlog = []

/-- The file is whole in the backlog, or gone from there and whole on a drive. -/
def Held (fs : FS) (n : Name) (b : Bytes) : Prop :=
  fs.contents ⟨.backlog, n⟩ = some b ∨
    fs.contents ⟨.backlog, n⟩ = none ∧ ∃ drive date, fs.contents ⟨.pcap drive date, n⟩ = some b

/-- Every file that came is held. -/
def Store.Safe (s : Store) : Prop := ∀ n b, (n, b) ∈ s.staged → Held s.disk.fs n b

/-- And what is in the backlog is what came, under a name of the listing. -/
structure Inv (s : Store) : Prop where
  safe : s.Safe
  known : ∀ n, s.disk.fs.contents ⟨.backlog, n⟩ ≠ none →
    n ∈ s.staged.map (·.1) ∧ globPcapAny n = true

section
variable {env : Env} {rotate : ℚ} {s s' : Store} {fs fs' : FS} {src dst : Path} {f : File}
  {r : TransferResult} {n : Name} {b : Bytes} {inp : BatchInput} {drive : Drive}

/-- **A transfer lets go of its source only for the whole of it.** -/
theorem source_or_delivered {fl : TransferFaults} (h : TransferEnd env fl src dst f fs r fs')
    (hne : src ≠ dst) (hsrc : fs.read src = some f) (htold : Told env fl f) :
    fs'.read src = some f ∨ fs'.read src = none ∧ fs'.contents dst = some f.bytes := by
  have hrenamed : ((fs.remove src).write dst f).read src = none ∧
      ((fs.remove src).write dst f).contents dst = some f.bytes := by
    rw [FS.read_write_ne hne, FS.read_remove_self]
    exact ⟨rfl, FS.contents_write_self⟩
  have hcopied (w : File) (hw : w.bytes = f.bytes) : ((fs.write dst w).remove src).read src = none ∧
      ((fs.write dst w).remove src).contents dst = some f.bytes := by
    refine ⟨FS.read_remove_self, ?_⟩
    rw [FS.contents_remove, Function.update_of_ne hne.symm, FS.contents_write_self, hw]
  cases h with
  | renamed | renamedUnhashed => exact .inr hrenamed
  | fellBack _ hr hw | fellBackUnhashed _ hr hw =>
    exact .inr (hcopied _ (by rw [hw.honest (htold.uncompared hr)]))
  | fellBackTorn | fellBackUndeleted | torn | unverified | mismatchKept | undeleted =>
    left; rw [FS.read_write_ne hne, hsrc]
  | mismatch => left; rw [FS.read_remove_ne hne, FS.read_write_ne hne, hsrc]
  | moved _ hw _ _ _ hdigest _ =>
    refine .inr (hcopied _ ?_)
    generalize hcopy : fl.copy2 = fault at hw
    cases hw with
    | faithful => rfl
    | other b => exact htold.compared b hcopy hdigest

/-- With nothing failing it does let go. -/
theorem delivered (h : TransferEnd env {} src dst f fs r fs') (hne : src ≠ dst)
    (hsrc : fs.read src = some f) : fs'.read src = none ∧ fs'.contents dst = some f.bytes := by
  rcases source_or_delivered h hne hsrc ⟨nofun, fun _ => nofun⟩ with hkept | hgone
  · by_cases hdev : env.sameDev src dst.dir
    · cases h with
      | renamed => rw [FS.read_write_ne hne, FS.read_remove_self] at hkept; cases hkept
      | renamedUnhashed _ hhash => cases hhash
      | fellBack _ hr | fellBackUnhashed _ hr | fellBackTorn _ hr | fellBackUndeleted _ hr =>
        exact absurd rfl hr
      | torn hd | unverified hd | mismatch hd | mismatchKept hd | moved hd | undeleted hd =>
        exact absurd hdev hd
    · rw [(h.faultless hdev).2, FS.read_remove_self] at hkept
      cases hkept
  · exact hgone

theorem turn_held (drive : Drive) (hact : turnActive rotate inp fs n = false) (hf : fs.read ⟨.backlog, n⟩ = some f)
    (htold : Told env (inp.turn n).transfer f) :
    (turnFs env rotate inp (.pcap drive inp.date) fs n).read ⟨.backlog, n⟩ = some f ∨
      (turnFs env rotate inp (.pcap drive inp.date) fs n).read ⟨.backlog, n⟩ = none ∧
      (turnFs env rotate inp (.pcap drive inp.date) fs n).contents ⟨.pcap drive inp.date, n⟩ =
        some f.bytes := by
  simp only [turnFs, hact, Bool.false_eq_true, if_false, turnOut]
  have hne : (⟨.backlog, n⟩ : Path) ≠ ⟨.pcap drive inp.date, n⟩ := by simp
  rcases transferFile_ends env (inp.turn n).transfer hne hf with ⟨_, _, h⟩ | ⟨_, _, _, h, hend⟩
  · rw [h]; exact .inl hf
  · rw [h]
    exact source_or_delivered hend hne hf htold

theorem turn_contents (env : Env) (rotate : ℚ) (inp : BatchInput) (fs : FS) (dest dir : Dir) {m : Name}
    (hm : m ≠ n) :
    (turnFs env rotate inp dest fs n).contents ⟨dir, m⟩ = fs.contents ⟨dir, m⟩ := by
  unfold FS.contents
  rw [turnFs_frame]
  intro hp
  exact hm (turnPaths_name hp)

theorem Held.turn (h : Held fs n b)
    (htold : ∀ f, fs.read ⟨.backlog, n⟩ = some f → Told env (inp.turn n).transfer f)
    (hin : fs.contents ⟨.backlog, n⟩ ≠ none) :
    Held (turnFs env rotate inp (.pcap drive inp.date) fs n) n b := by
  rcases h with hback | ⟨hnone, -⟩
  · cases hact : turnActive rotate inp fs n with
    | true => rw [turnFs, if_pos hact]; exact .inl hback
    | false =>
      obtain ⟨f, hf, rfl⟩ := FS.contents_eq_some.mp hback
      rcases turn_held drive hact hf (htold f hf) with hkept | ⟨hgone, hthere⟩
      · exact .inl (FS.contents_of_read hkept)
      · exact .inr ⟨by rw [FS.contents, hgone]; rfl, drive, inp.date, hthere⟩
  · exact absurd hnone hin

theorem Held.stage (h : Held fs n b) {m : Name} (hne : n ≠ m) (f : File) :
    Held (fs.write ⟨.backlog, m⟩ f) n b := by
  rcases h with hback | ⟨hnone, drive, date, hthere⟩
  · left
    rw [FS.contents_write_ne (by simp [hne])]
    exact hback
  · right
    refine ⟨?_, drive, date, ?_⟩
    · rw [FS.contents_write_ne (by simp [hne])]
      exact hnone
    · rw [FS.contents_write_ne (by simp)]
      exact hthere

theorem Held.other_turn (h : Held fs n b) {m : Name} (hne : n ≠ m) (env : Env) (rotate : ℚ) (inp : BatchInput)
    (dest : Dir) : Held (turnFs env rotate inp dest fs m) n b := by
  simpa only [Held, turn_contents env rotate inp fs _ _ hne] using h

/-- A file of a new name comes to the backlog. -/
theorem held_stage {l : List (Name × Bytes)} (h : ∀ m b, (m, b) ∈ l → Held fs m b) (hnew : n ∉ l.map (·.1))
    (f : File) : ∀ m b, (m, b) ∈ l ++ [(n, f.bytes)] → Held (fs.write ⟨.backlog, n⟩ f) m b := by
  intro m b hm
  rcases List.mem_append.mp hm with hold | hlast
  · have hne : m ≠ n := by
      rintro rfl
      exact hnew (List.mem_map.mpr ⟨(m, b), hold, rfl⟩)
    exact (h m b hold).stage hne f
  · cases List.mem_singleton.mp hlast
    exact .inl FS.contents_write_self

/-- The exporter has a turn at a file of the backlog. -/
theorem held_turn {l : List (Name × Bytes)} (h : ∀ m b, (m, b) ∈ l → Held fs m b)
    (htold : ∀ f, fs.read ⟨.backlog, n⟩ = some f → Told env (inp.turn n).transfer f)
    (hin : fs.contents ⟨.backlog, n⟩ ≠ none) :
    ∀ m b, (m, b) ∈ l → Held (turnFs env rotate inp (.pcap drive inp.date) fs n) m b := by
  intro m b hm
  by_cases hmn : m = n
  · subst hmn
    exact (h m b hm).turn htold hin
  · exact (h m b hm).other_turn hmn env rotate inp _

theorem Store.Start.inv (h : s.Start) : Inv s where
  safe n b hn := by rw [h.staged] at hn; cases hn
  known n hn := by
    obtain ⟨b, hb⟩ := Option.ne_none_iff_exists'.mp hn
    obtain ⟨f, hf, -⟩ := FS.contents_eq_some.mp hb
    have hmem := FS.mem_names.mpr ⟨f, hf⟩
    rw [h.backlog] at hmem
    cases hmem

theorem step_inv (a : Act) (h : Inv s) (htold : AllTold env s a) (hstep : step env rotate s a = some s') :
    Inv s' := by
  cases a with
  | stage n f =>
    obtain ⟨hnew, hstep⟩ := Option.ite_none_left_eq_some.mp hstep
    cases hstep
    obtain ⟨hfresh, hglob⟩ := not_or.mp hnew
    constructor
    · exact held_stage h.safe hfresh f
    · intro m hm
      by_cases hmn : m = n
      · subst hmn
        simpa using hglob
      · rw [FS.contents_write_ne (by simp [hmn])] at hm
        obtain ⟨hmem, hg⟩ := h.known m hm
        exact ⟨by simp [List.mem_append.mpr (.inl hmem)], hg⟩
  | turn n drive inp =>
    obtain ⟨hlisted, hstep⟩ := Option.ite_none_right_eq_some.mp hstep
    cases hstep
    obtain ⟨⟨f, hf⟩, -⟩ := mem_backlogPcaps.mp hlisted
    have hin : s.disk.fs.contents ⟨.backlog, n⟩ ≠ none := by simp [FS.contents_of_read hf]
    have hfs : (after (exportTurn env rotate inp (.pcap drive inp.date) {} n) s.disk).fs =
        turnFs env rotate inp (.pcap drive inp.date) s.disk.fs n := by
      rw [Pipeline.after_exportTurn]
      rfl
    constructor
    · intro m b hm
      show Held (after _ s.disk).fs m b
      rw [hfs]
      exact held_turn h.safe htold hin m b hm
    · intro m hm
      by_cases hmn : m = n
      · subst hmn
        exact h.known m hin
      · refine h.known m ?_
        show s.disk.fs.contents ⟨.backlog, m⟩ ≠ none
        rw [← turn_contents env rotate inp s.disk.fs (.pcap drive inp.date) .backlog hmn, ← hfs]
        exact hm

/-- No fault, and every file of the backlog old enough. -/
structure Quiet (rotate : ℚ) (inp : BatchInput) (fs : FS) : Prop where
  glob : inp.glob = none
  getmtime : ∀ n, (inp.turn n).getmtime = none
  stat : ∀ n, (inp.turn n).stat = none
  transfer : ∀ n, (inp.turn n).transfer = {}
  old : ∀ n f, fs.read ⟨.backlog, n⟩ = some f → rotate * (3 / 2) ≤ (inp.turn n).now - f.mtime

theorem Quiet.turn (h : Quiet rotate inp fs) (env : Env) (drive : Drive)
    (hf : fs.read ⟨.backlog, n⟩ = some f) :
    (turnFs env rotate inp (.pcap drive inp.date) fs n).read ⟨.backlog, n⟩ = none ∧
      (turnFs env rotate inp (.pcap drive inp.date) fs n).contents ⟨.pcap drive inp.date, n⟩ =
        some f.bytes := by
  have hact : turnActive rotate inp fs n = false := by
    simp only [turnActive, isFileActive, h.getmtime, hf]
    simpa using h.old n f hf
  simp only [turnFs, hact, Bool.false_eq_true, if_false, turnOut, h.transfer]
  have hne : (⟨.backlog, n⟩ : Path) ≠ ⟨.pcap drive inp.date, n⟩ := by simp
  rcases transferFile_ends env {} hne hf with ⟨hstop, -⟩ | ⟨_, _, _, hout, hend⟩
  · simp [TransferFaults.stopsEarly, MoveFaults.stopsEarly, CopyFault.isRefused] at hstop
  · rw [hout]
    exact delivered hend hne hf

/-- What a quiet pass leaves of each name, by whether the backlog had it. -/
theorem quiet_pass (h : Quiet rotate inp fs) {d d' : Disk} {counts : Nat × Nat} (hd : d.fs = fs)
    (hpass : exportBatch env rotate inp drive d = .ok counts d') (n : Name) :
    (n ∈ backlogPcaps fs → d'.fs.contents ⟨.backlog, n⟩ = none ∧
      d'.fs.contents ⟨.pcap drive inp.date, n⟩ = fs.contents ⟨.backlog, n⟩) ∧
    (n ∉ backlogPcaps fs → ∀ dir, d'.fs.contents ⟨dir, n⟩ = fs.contents ⟨dir, n⟩) := by
  subst hd
  obtain ⟨acc, d₁, hloop, rfl, -⟩ := exportBatch_ok hpass
  obtain ⟨hframe, hagree, -⟩ := exportLoop_ok (backlogPcaps_nodup d.fs) hloop
  rw [writeReceipts_fs]
  constructor
  · intro hn
    obtain ⟨⟨f, hf⟩, -⟩ := mem_backlogPcaps.mp hn
    obtain ⟨hgone, hthere⟩ := h.turn env drive hf
    constructor
    · rw [FS.contents, hagree n hn _ (.inl rfl), hgone]
      rfl
    · rw [FS.contents_of_read hf, ← hthere]
      unfold FS.contents
      rw [hagree n hn _ (.inr rfl)]
  · intro hn dir
    unfold FS.contents
    rw [hframe]
    intro m hm hp
    have hname : n = m := turnPaths_name hp
    exact hn (hname ▸ hm)

end

/-- **The exporter by itself loses nothing.** In every state of every run of arrivals, each
under a new name that matches `*.pcap*`, and turns, in any order, on any drives and dates
and with any faults, as long as SHA-256 tells a file from what a bad copy wrote instead
and no bad copy falls in for a rename: each file that came is whole in the backlog, or
gone from there and whole on a drive. -/
theorem exporter_never_loses (env : Env) (rotate : ℚ) (s : Store) (hstart : s.Start) (acts : List Act)
    (htold : Runs.Meets (step env rotate) (AllTold env) s acts) :
    Runs.Always (step env rotate) Store.Safe s acts :=
  (Runs.always_of_meets (fun _ a _ h hold hstep => step_inv a h hold hstep) hstart.inv htold).mono
    fun _ h => h.safe

/-- **One quiet pass settles everything.** After any such run, whatever failed
and wherever it stopped, a pass that meets no fault, made when every file of the
backlog is old enough, returns, leaves the backlog empty, and every file that
ever came is whole on a drive. -/
theorem quiet_pass_settles (env : Env) (rotate : ℚ) (s : Store) (hstart : s.Start) (acts : List Act)
    (htold : Runs.Meets (step env rotate) (AllTold env) s acts) (s' : Store)
    (hrun : Runs.run (step env rotate) s acts = some s') (inp : BatchInput) (drive : Drive)
    (hquiet : Quiet rotate inp s'.disk.fs) :
    ∃ counts d', exportBatch env rotate inp drive s'.disk = .ok counts d' ∧
      (∀ n, d'.fs.contents ⟨.backlog, n⟩ = none) ∧
      ∀ n b, (n, b) ∈ s'.staged → ∃ v date, d'.fs.contents ⟨.pcap v date, n⟩ = some b := by
  have hinv : Inv s' := (Runs.always_of_meets (fun _ a _ h hold hstep => step_inv a h hold hstep)
    hstart.inv htold).last hrun
  obtain ⟨counts, d', hpass⟩ := exportBatch_returns env rotate drive hquiet.glob hquiet.stat s'.disk
  have hlisted : ∀ n, s'.disk.fs.contents ⟨.backlog, n⟩ ≠ none → n ∈ backlogPcaps s'.disk.fs := by
    intro n hn
    obtain ⟨b, hb⟩ := Option.ne_none_iff_exists'.mp hn
    obtain ⟨f, hf, -⟩ := FS.contents_eq_some.mp hb
    exact mem_backlogPcaps.mpr ⟨⟨f, hf⟩, (hinv.known n hn).2⟩
  refine ⟨counts, d', hpass, fun n => ?_, fun n b hn => ?_⟩
  · by_cases hmem : n ∈ backlogPcaps s'.disk.fs
    · exact ((quiet_pass hquiet rfl hpass n).1 hmem).1
    · rw [(quiet_pass hquiet rfl hpass n).2 hmem]
      by_contra hn
      exact hmem (hlisted n hn)
  · rcases hinv.safe n b hn with hback | ⟨hnone, v, date, hthere⟩
    · refine ⟨drive, inp.date, ?_⟩
      rw [((quiet_pass hquiet rfl hpass n).1 (hlisted n (by simp [hback]))).2, hback]
    · have hmem : n ∉ backlogPcaps s'.disk.fs := by
        intro hmem
        obtain ⟨⟨f, hf⟩, -⟩ := mem_backlogPcaps.mp hmem
        cases hnone.symm.trans (FS.contents_of_read hf)
      exact ⟨v, date, by rw [(quiet_pass hquiet rfl hpass n).2 hmem]; exact hthere⟩

/-- The copy of the first turn is torn, that of the second writes another byte. -/
def benchTurns : List Act :=
  [.stage "a.pcap" ⟨[0x61, 0x62], 0⟩,
    .turn "a.pcap" "SEER_EXT"
      { date := "20260101",
        turn := fun _ => { now := 100, transfer := { copy2 := .torn 1 100 "[Errno 5]" } } },
    .turn "a.pcap" "SPARE"
      { date := "20260102",
        turn := fun _ => { now := 200, transfer := { copy2 := .corrupt [0x62] } } }]

theorem benchTurns_told :
    Runs.Meets (step benchEnv 20) (AllTold benchEnv) { disk := { fs := .empty } } benchTurns := by
  intro s₁ h₁
  refine ⟨trivial, fun s₂ h₂ => ⟨fun f _ => ⟨nofun, fun h => absurd rfl h⟩,
    fun s₃ h₃ => ⟨fun f hf => ⟨?_, fun h => absurd rfl h⟩, trivial⟩⟩⟩
  cases h₁
  cases h₂
  intro b hb hsha
  cases hb
  have hkept : f.bytes = [0x61, 0x62] := by
    have hcontents := FS.contents_of_read hf
    have heval : (after (exportTurn benchEnv 20 { date := "20260101", turn := fun _ =>
        { now := 100, transfer := { copy2 := .torn 1 100 "[Errno 5]" } } } (.pcap "SEER_EXT" "20260101") {}
        "a.pcap") { fs := FS.empty.write ⟨.backlog, "a.pcap"⟩ ⟨[0x61, 0x62], 0⟩ }).fs.contents
        ⟨.backlog, "a.pcap"⟩ = some [0x61, 0x62] := by
      decide +kernel
    exact Option.some.inj (hcontents.symm.trans heval)
  rw [hkept] at hsha
  exact absurd hsha (by decide +kernel)

theorem exporter_never_loses_torn :
    Runs.Always (step benchEnv 20) Store.Safe { disk := { fs := .empty } } benchTurns :=
  exporter_never_loses benchEnv 20 _ ⟨rfl, rfl⟩ benchTurns benchTurns_told

theorem quiet_pass_settles_torn :
    ∃ s', Runs.run (step benchEnv 20) { disk := { fs := .empty } } benchTurns = some s' ∧
      ∃ counts d', exportBatch benchEnv 20 { date := "20260102", turn := fun _ => { now := 300 } } "SPARE"
        s'.disk = .ok counts d' ∧ (∀ n, d'.fs.contents ⟨.backlog, n⟩ = none) ∧
      ∀ n b, (n, b) ∈ s'.staged → ∃ v date, d'.fs.contents ⟨.pcap v date, n⟩ = some b := by
  have hran : (Runs.run (step benchEnv 20) { disk := { fs := .empty } } benchTurns).map
      (fun s => decide (∀ x ∈ s.disk.fs.files.entries, x.2.mtime ≤ 100)) = some true := by
    decide +kernel
  obtain ⟨s', hrun, hage⟩ := Option.map_eq_some_iff.mp hran
  refine ⟨s', hrun, quiet_pass_settles benchEnv 20 _ ⟨rfl, rfl⟩ benchTurns benchTurns_told s' hrun _ _
    ⟨rfl, fun _ => rfl, fun _ => rfl, fun _ => rfl, fun n f hf => ?_⟩⟩
  have hle : f.mtime ≤ 100 := of_decide_eq_true hage ⟨_, f⟩ (AList.mem_lookup_iff.mp hf)
  show (20 : ℚ) * (3 / 2) ≤ 300 - f.mtime
  linarith

end SeerSensor.Retry
