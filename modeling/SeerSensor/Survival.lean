/-
Which runs of the pipeline keep every capture.

The mover never loses one: what it takes from the ring is complete, and what
it puts over another file of that name is at worst a prefix with the complete
file still in the ring. The exporter can. Its source may be the truncated
leftover of a copy to the backlog that failed, while the mover, trying again,
has meanwhile put the complete file on the drive; the transfer then replaces
the complete file by the truncated one, verifies that the two ends agree, and
removes the source. `captures_survive_iff` says that this is the only way.
-/
import SeerSensor.Pipeline

namespace SeerSensor.Pipeline

open MoveOldest Raise Replica

/-- A transfer of the exporter may start: a drive is mounted, the file is in
the listing and its copies write what they are given. -/
def World.mayTransfer (w : World) (n : Name) (inp : BatchInput) : Prop :=
  n ∈ backlogPcaps w.disk.fs ∧ (inp.turn n).transfer.Honest

instance (w : World) (n : Name) (inp : BatchInput) : Decidable (w.mayTransfer n inp) :=
    inferInstanceAs (Decidable (_ ∧ _))

/-- One turn of an `export_batch` pass, begun on the date `inp.date`. -/
def World.transfer (env : Env) (rotate : ℚ) (w : World) (n : Name) (inp : BatchInput) : Option World :=
  match w.mounted with
  | none => none
  | some drive =>
    if w.mayTransfer n inp then
      some { w with disk := after (exportTurn env rotate inp (.pcap drive inp.date) {} n) w.disk }
    else
      none

/-- What happens, and transfers of the exporter. -/
inductive Act where
  | event (e : Event)
  | transfer (n : Name) (inp : BatchInput)

/-- An event, or one turn of a pass. -/
def step (cfg : Config) (env : Env) (rotate : ℚ) (w : World) : Act → Option World
  | .event e => w.event cfg env e
  | .transfer n inp => w.transfer env rotate n inp

/-- The transfer of `n` to `dest` does not replace the only complete copy of the
capture `c` by a truncated one: the backlog's file is complete, or the one at
the destination is not, or there is a third, or the transfer does not get as
far as the destination. -/
def Spares (env : Env) (rotate : ℚ) (fs : FS) (dest : Dir) (n : Name) (inp : BatchInput)
    (c : Bytes) : Prop :=
  fs.contents ⟨.backlog, n⟩ = some c ∨ fs.contents ⟨dest, n⟩ ≠ some c ∨
    (∃ dir, dir ≠ .backlog ∧ dir ≠ dest ∧ fs.contents ⟨dir, n⟩ = some c) ∨
    turnActive rotate inp fs n = true ∨ (inp.turn n).transfer.stopsEarly
      (env.sameDev ⟨.backlog, n⟩ dest)

/-- A transfer spares the capture of its name. -/
def SparesComplete (env : Env) (rotate : ℚ) (w : World) : Act → Prop
  | .event _ => True
  | .transfer n inp => ∀ drive c, w.mounted = some drive → (n, c) ∈ w.captured →
      Spares env rotate w.disk.fs (.pcap drive inp.date) n inp c

section
variable {env : Env} {rotate : ℚ} {inp : BatchInput} {dest : Dir} {n : Name} {w w' : World}
  {captured : List (Name × Bytes)}
  {fs : FS}

theorem after_exportTurn (env : Env) (rotate : ℚ) (inp : BatchInput) (dest : Dir) (acc : Batch)
    (n : Name) (d : Disk) :
    after (exportTurn env rotate inp dest acc n) d = turnDisk env rotate inp dest d n := by
  rcases exportTurn_cases env rotate inp dest acc n d with ⟨_, h, -, -⟩ | ⟨_, -, h⟩
  · exact after_ok h
  · exact after_error h

theorem transfer_eq (h : w.transfer env rotate n inp = some w') :
    ∃ drive, w.mounted = some drive ∧ (inp.turn n).transfer.Honest ∧
      w' = { w with disk := turnDisk env rotate inp (.pcap drive inp.date) w.disk n } := by
  unfold World.transfer at h
  split at h
  · cases h
  next drive hmount =>
    split at h
    next hmay =>
      cases h
      exact ⟨drive, hmount, hmay.2, by rw [after_exportTurn]⟩
    · cases h

/-- A transfer that leaves the capture somewhere has spared it. -/
theorem spares_of_kept (ht : Traced captured fs) (hh : (inp.turn n).transfer.Honest)
    (hback : dest ≠ .backlog) {c : Bytes} (hc : (n, c) ∈ captured) {dir : Dir}
    (hdir : (turnFs env rotate inp dest fs n).contents ⟨dir, n⟩ = some c) :
    Spares env rotate fs dest n inp c := by
  have hcarry : Carry ⟨.backlog, n⟩ ⟨dest, n⟩ fs.contents
      (turnFs env rotate inp dest fs n).contents := turnFs_carry hh hback
  by_contra hnot
  simp only [Spares, not_or, not_not, Bool.not_eq_true, not_exists, not_and] at hnot
  obtain ⟨hincomplete, -, hno, hact, hgo⟩ := hnot
  obtain ⟨f, hf⟩ := turnActive_found hact
  by_cases hd : dir = dest
  · -- what is there now is no longer than the truncated source
    subst hd
    obtain ⟨k, hreach⟩ := turnFs_reaches hh hback hact hgo hf
    rw [hreach, Option.some.injEq] at hdir
    obtain ⟨c', hc', hpre⟩ := ht.backlog n f.bytes (FS.contents_of_read hf)
    obtain rfl := ht.unique hc hc'
    have hle : c.length ≤ f.bytes.length := by
      rw [← hdir, List.length_take]
      omega
    exact hincomplete (by rw [FS.contents_of_read hf, hpre.eq_of_length_le hle])
  · by_cases hb : dir = .backlog
    · subst hb
      exact hincomplete (carry_source hcarry hback.symm hdir)
    · exact hno dir hb hd (by rw [← carry_dir hcarry hb hd]; exact hdir)

theorem kept_of_spares (hh : (inp.turn n).transfer.Honest) (hback : dest ≠ .backlog)
    {c : Bytes} (hk : ∃ dir, fs.contents ⟨dir, n⟩ = some c)
    (hs : Spares env rotate fs dest n inp c) :
    ∃ dir, (turnFs env rotate inp dest fs n).contents ⟨dir, n⟩ = some c := by
  have hcarry : Carry ⟨.backlog, n⟩ ⟨dest, n⟩ fs.contents
      (turnFs env rotate inp dest fs n).contents := turnFs_carry hh hback
  have hsurvive : ∀ dir, dir ≠ dest → fs.contents ⟨dir, n⟩ = some c →
      ∃ dir, (turnFs env rotate inp dest fs n).contents ⟨dir, n⟩ = some c := by
    intro dir hd hdir
    rcases hcarry.survives hdir (by simp [hd]) with h | h
    · exact ⟨_, h⟩
    · exact ⟨_, h⟩
  obtain ⟨dir, hdir⟩ := hk
  rcases hs with hcomplete | hother | ⟨dir', -, hd, hdir'⟩ | hact | hstop
  · exact hsurvive .backlog hback.symm hcomplete
  · exact hsurvive dir (fun hd => hother (hd ▸ hdir)) hdir
  · exact hsurvive dir' hd hdir'
  · rw [turnFs, if_pos hact]; exact ⟨dir, hdir⟩
  · rw [turnFs_stops hback hstop]; exact ⟨dir, hdir⟩

/-- **One transfer.** It keeps every capture exactly when it spares the
complete copy of its own. -/
theorem turn_kept_iff (ht : Traced captured fs) (hk : Kept captured fs)
    (hh : (inp.turn n).transfer.Honest) (hback : dest ≠ .backlog) :
    Kept captured (turnFs env rotate inp dest fs n) ↔
      ∀ c, (n, c) ∈ captured → Spares env rotate fs dest n inp c := by
  refine ⟨fun hk' c hc => ?_, fun hs m c hm => ?_⟩
  · obtain ⟨dir, hdir⟩ := hk' n c hc
    exact spares_of_kept ht hh hback hc hdir
  · by_cases hmn : m = n
    · subst hmn
      exact kept_of_spares hh hback (hk m c hm) (hs c hm)
    · obtain ⟨dir, hdir⟩ := hk m c hm
      exact ⟨dir, by rw [carry_name (turnFs_carry hh hback) hmn]; exact hdir⟩

end

section
variable {cfg : Config} {env : Env} {rotate : ℚ}

theorem step_traced (w : World) (a : Act) (w' : World) (ht : Traced w.captured w.disk.fs)
    (h : step cfg env rotate w a = some w') : Traced w'.captured w'.disk.fs := by
  cases a with
  | event e => exact event_traced ht h
  | transfer n inp =>
    obtain ⟨drive, -, hh, rfl⟩ := transfer_eq h
    exact ht.exported (turnFs_carry hh (by simp)) (by simp) (by simp)

theorem step_kept_iff (w : World) (a : Act) (w' : World) (ht : Traced w.captured w.disk.fs)
    (hk : Kept w.captured w.disk.fs) (h : step cfg env rotate w a = some w') :
    Kept w'.captured w'.disk.fs ↔ SparesComplete env rotate w a := by
  cases a with
  | event e => exact ⟨fun _ => trivial, fun _ => event_kept ht hk h⟩
  | transfer n inp =>
    obtain ⟨drive, hmount, hh, rfl⟩ := transfer_eq h
    refine (turn_kept_iff ht hk hh (by simp)).trans ⟨fun hs drive' c hm hc => ?_,
      fun hs c hc => ?_⟩
    · rw [hmount, Option.some.injEq] at hm
      exact hm ▸ hs c hc
    · exact hs drive c hmount hc

end

/-- **Which runs keep every capture.** From an empty ring and backlog, with any
drives, in any order of captures, runs of the mover, transfers, drives coming
and going and new days, with every copy faithful, torn or not followed by its
unlink: every capture is complete in the ring, in the backlog or on a drive in
every state of the run exactly when each transfer of the run spares the
complete copy of its file. -/
theorem captures_survive_iff (cfg : Config) (env : Env) (rotate : ℚ) (w : World) (hstart : w.Start)
    (acts : List Act) :
    Runs.Always (step cfg env rotate) (fun w => Kept w.captured w.disk.fs) w acts ↔
      Runs.Meets (step cfg env rotate) (SparesComplete env rotate) w acts := by
  refine Runs.always_iff_meets (fun w a w' ht _ => step_traced w a w' ht) step_kept_iff acts hstart.traced ?_
  intro n c hc
  rw [hstart.captured] at hc
  cases hc

/-- The first two captures of a day: `ab` and, twenty seconds later, `b`. -/
def benchCaptures : List Act :=
  [.event (.capture "a.pcap" ⟨[0x61, 0x62], 0⟩), .event (.capture "b.pcap" ⟨[0x62], 20⟩)]

def benchMove (now : Time) (mounts : Mounts) (copy2 : CopyFault) : Act :=
  .event (.mover { now := now, mounts := mounts, date := "20260101", move := { copy2 := copy2 } })

/-- The oldest file reaches the backlog and from there the drive. -/
theorem captures_survive_faultless :
    Runs.Always (step { thresh := 2 } benchEnv 20) (fun w => Kept w.captured w.disk.fs)
      { disk := { fs := .empty }, mounted := none, date := "20260101" }
      (benchCaptures ++ [benchMove 30 noMounts .none, .event (.mount (some "SEER_EXT")),
        .transfer "a.pcap" { date := "20260101", turn := fun _ => { now := 100 } }]) := by
  refine (captures_survive_iff { thresh := 2 } benchEnv 20 _ ⟨rfl, rfl, rfl⟩ _).mpr ?_
  intro w₁ h₁
  refine ⟨trivial, fun w₂ h₂ => ⟨trivial,
    fun w₃ h₃ => ⟨trivial, fun w₄ h₄ => ⟨trivial, fun w₅ _ => ⟨?_, trivial⟩⟩⟩⟩⟩
  cases h₁
  cases h₂
  cases h₃
  cases h₄
  intro drive c _ hc
  obtain rfl : c = [0x61, 0x62] := by simpa using hc
  -- what is in the backlog is complete
  left
  decide +kernel

/-- A copy to the backlog runs out of space after one byte. The mover tries
again when a drive has come and moves the file there, complete; the exporter
then puts the truncated leftover over it. The bytes are nowhere. -/
theorem truncated_leftover_replaces_capture :
    ∃ w, Runs.run (step { thresh := 2 } benchEnv 20)
        { disk := { fs := .empty }, mounted := none, date := "20260101" }
        (benchCaptures ++ [benchMove 30 noMounts (.torn 1 30 "[Errno 28] No space left on device"),
          .event (.mount (some "SEER_EXT")), benchMove 40 (oneMount "SEER_EXT") .none,
          .transfer "a.pcap" { date := "20260101", turn := fun _ => { now := 100 } }]) = some w ∧
      ("a.pcap", [0x61, 0x62]) ∈ w.captured ∧ ¬ w.disk.fs.Stored [0x61, 0x62] := by
  have hran : (Runs.run (step { thresh := 2 } benchEnv 20)
        { disk := { fs := .empty }, mounted := none, date := "20260101" }
        (benchCaptures ++ [benchMove 30 noMounts (.torn 1 30 "[Errno 28] No space left on device"),
          .event (.mount (some "SEER_EXT")), benchMove 40 (oneMount "SEER_EXT") .none,
          .transfer "a.pcap" { date := "20260101", turn := fun _ => { now := 100 } }])).map
      (fun w => (decide (("a.pcap", [0x61, 0x62]) ∈ w.captured),
        decide (w.disk.fs.Stored [0x61, 0x62]))) =
      some (true, false) := by decide +kernel
  obtain ⟨w, hrun, hw⟩ := Option.map_eq_some_iff.mp hran
  obtain ⟨hcap, hlost⟩ := Prod.mk.inj hw
  exact ⟨w, hrun, of_decide_eq_true hcap, of_decide_eq_false hlost⟩

end SeerSensor.Pipeline
