/-
How long a capture waits in the ring.

The bound on how full the ring gets is about the timed system, the order in which
files leave it about the untimed one. A timed run, in which packets arrive before
the rotation that ends their file, is a run of the untimed system too (`Tracks`), so
the two meet: the ring is the latest captures and no others, there are only so many
of them, and one begins every `rotate_seconds`. What is older than that many
rotations has been moved.
-/
import SeerSensor.RingBound
import SeerSensor.RingOrder

namespace SeerSensor.RingWait

open MoveOldest Raise RingBound

/-- The files capture begins, in order. -/
def begun : List Act → List Name
  | [] => []
  | .rotate n :: acts => n :: begun acts
  | _ :: acts => begun acts

/-- No packet is written at the very time of the next rotation. -/
def Strict (s : State) : Act → Prop
  | .write τ _ => τ < s.nextCapture
  | _ => True

/-- The untimed state that goes with a timed one: the same files, the active one the
last begun, and times of modification in the order of the files. -/
structure Tracks (rotate : Nat) (s : State) (o : RingOrder.State) : Prop where
  files : o.fs = s.fs
  fifo : RingOrder.Fifo o
  active : ∀ n f, s.active = some n → s.fs.read ⟨.ring, n⟩ = some f → o.created.getLast? = some n
  recent : ∀ n f, s.fs.read ⟨.ring, n⟩ = some f → f.mtime < s.nextCapture
  older : ∀ n f, s.fs.read ⟨.ring, n⟩ = some f → some n ≠ s.active → f.mtime < s.nextCapture - rotate

section
variable {rotate : Nat} {cfg : Config} {env : Env} {s s' : State} {o : RingOrder.State}

theorem capture_of_mayWrite {n : Name} {f : File} (h : RingOrder.mayWrite o n f) :
    RingOrder.capture o (n, f) = some { o with
      fs := o.fs.write ⟨.ring, n⟩ f
      created := if n ∈ o.created then o.created else o.created ++ [n] } :=
  if_pos h

theorem Tracks.written {τ : Time} {b : Bytes} (ht : Tracks rotate s o) (hlate : s.nextCapture - rotate ≤ s.now)
    (hτ : τ < s.nextCapture) (h : RingBound.step rotate cfg env s (.write τ b) = some s') :
    ∃ o', Tracks rotate s' o' ∧ o'.created = o.created := by
  obtain ⟨n, f, hn, hf, hnow, -, -, rfl⟩ := write_eq h
  have hlast := ht.active n f hn hf
  have hother : ∀ m g, m ≠ n → s.fs.read ⟨.ring, m⟩ = some g → g.mtime < s.nextCapture - rotate := by
    intro m g hm hg
    refine ht.older m g hg ?_
    rw [hn]
    simpa using hm
  have hmay : RingOrder.mayWrite o n ⟨f.bytes ++ b, τ⟩ := by
    refine ⟨.inl hlast, fun m _ hm g hg => ?_⟩
    rw [ht.files] at hg
    exact (hother m g hm hg).trans_le (hlate.trans hnow)
  have hcap := capture_of_mayWrite hmay
  rw [if_pos (List.mem_of_mem_getLast? hlast)] at hcap
  refine ⟨_, ⟨by rw [ht.files], RingOrder.capture_fifo ht.fifo hcap, fun m g hm _ => ?_, fun m g hg => ?_,
    fun m g hg hm => ?_⟩, rfl⟩
  · rw [hn] at hm
    exact Option.some.inj hm ▸ hlast
  · by_cases hmn : m = n
    · subst hmn
      rw [FS.read_write_self] at hg
      cases hg
      exact hτ
    · rw [FS.read_write_ne (by simpa using hmn)] at hg
      exact ht.recent m g hg
  · have hmn : m ≠ n := by
      rintro rfl
      exact hm hn.symm
    rw [FS.read_write_ne (by simpa using hmn)] at hg
    exact hother m g hmn hg

theorem Tracks.rotated {n : Name} (hrotate : 0 < rotate) (ht : Tracks rotate s o) (hnew : n ∉ o.created)
    (h : RingBound.step rotate cfg env s (.rotate n) = some s') :
    ∃ o', Tracks rotate s' o' ∧ o'.created = o.created ++ [n] := by
  obtain ⟨⟨-, hglob, -⟩, rfl⟩ := rotate_eq h
  have hpos : (0 : ℚ) < rotate := by exact_mod_cast hrotate
  have hmay : RingOrder.mayWrite o n ⟨[], s.nextCapture⟩ := by
    refine ⟨.inr ⟨hnew, hglob⟩, fun m _ _ g hg => ?_⟩
    rw [ht.files] at hg
    exact ht.recent m g hg
  have hcap := capture_of_mayWrite hmay
  rw [if_neg hnew] at hcap
  refine ⟨_, ⟨by rw [ht.files], RingOrder.capture_fifo ht.fifo hcap, fun m g hm _ => ?_, fun m g hg => ?_,
    fun m g hg hm => ?_⟩, rfl⟩
  · cases hm
    simp
  · by_cases hmn : m = n
    · subst hmn
      rw [FS.read_write_self] at hg
      cases hg
      exact lt_add_of_pos_right _ hpos
    · rw [FS.read_write_ne (by simpa using hmn)] at hg
      exact (ht.recent m g hg).trans (lt_add_of_pos_right _ hpos)
  · have hmn : m ≠ n := by
      rintro rfl
      exact hm rfl
    rw [FS.read_write_ne (by simpa using hmn)] at hg
    simpa using ht.recent m g hg

theorem Tracks.fired {mounts : Mounts} {date : Date} (hthresh : 2 ≤ cfg.thresh) (ht : Tracks rotate s o)
    (h : RingBound.step rotate cfg env s (.fire mounts date) = some s') :
    ∃ o', Tracks rotate s' o' ∧ o'.created = o.created := by
  obtain ⟨-, rfl⟩ := fire_eq h
  have hkept : ∀ n f,
      (after (main cfg env { now := s.nextFire, mounts := mounts, date := date }) s.fs).read ⟨.ring, n⟩ = some f →
        s.fs.read ⟨.ring, n⟩ = some f := by
    rcases main_takes cfg env s.nextFire mounts date s.fs with ⟨hsame, -⟩ | ⟨_, -, -, hkept⟩
    · rw [hsame]
      exact fun _ _ hf => hf
    · exact hkept
  have hmover : ∃ o', RingOrder.mover cfg env o { now := s.nextFire, mounts := mounts, date := date } = some o' ∧
      o'.created = o.created ∧
      o'.fs = after (main cfg env { now := s.nextFire, mounts := mounts, date := date }) s.fs := by
    have hduring : RingOrder.during cfg o { now := s.nextFire, mounts := mounts, date := date } = [] := by
      unfold RingOrder.during
      split <;> rfl
    rw [RingOrder.mover, hduring, ← ht.files]
    exact ⟨_, rfl, rfl, rfl⟩
  obtain ⟨o', hstep, hcreated, hfs⟩ := hmover
  refine ⟨o', ⟨hfs, (RingOrder.mover_step hthresh ht.fifo hstep).1, fun n f hn hf => ?_, fun n f hf => ?_,
    fun n f hf hn => ?_⟩, hcreated⟩
  · rw [hcreated]
    exact ht.active n f hn (hkept n f hf)
  · exact ht.recent n f (hkept n f hf)
  · exact ht.older n f (hkept n f hf) hn

/-- One event: the untimed state goes along, and the next rotation moves on with each
file begun. -/
theorem Tracks.step {a : Act} (hrotate : 0 < rotate) (hthresh : 2 ≤ cfg.thresh) (ht : Tracks rotate s o)
    (hlate : s.nextCapture - rotate ≤ s.now) (hstrict : Strict s a) (hnew : ∀ n ∈ begun [a], n ∉ o.created)
    (h : RingBound.step rotate cfg env s a = some s') :
    ∃ o', Tracks rotate s' o' ∧ o'.created = o.created ++ begun [a] ∧
      s'.nextCapture = s.nextCapture + (begun [a]).length * rotate := by
  cases a with
  | write τ b =>
    obtain ⟨o', ho', hcreated⟩ := ht.written hlate hstrict h
    obtain ⟨n, f, -, -, -, -, -, rfl⟩ := write_eq h
    exact ⟨o', ho', by simp [begun, hcreated], by simp [begun]⟩
  | rotate n =>
    obtain ⟨o', ho', hcreated⟩ := ht.rotated hrotate (hnew n (by simp [begun])) h
    obtain ⟨-, rfl⟩ := rotate_eq h
    exact ⟨o', ho', by simp [begun, hcreated], by simp [begun]⟩
  | fire mounts date =>
    obtain ⟨o', ho', hcreated⟩ := ht.fired hthresh h
    obtain ⟨-, rfl⟩ := fire_eq h
    exact ⟨o', ho', by simp [begun, hcreated], by simp [begun]⟩

theorem begun_cons (a : Act) (acts : List Act) : begun (a :: acts) = begun [a] ++ begun acts := by
  cases a <;> rfl

theorem Tracks.run {t₀ : Time} {acts : List Act} (hrotate : 10 ≤ rotate) (hthresh : 2 ≤ cfg.thresh)
    (ht : Tracks rotate s o) (hfill : Filling rotate cfg.thresh 0 t₀ s)
    (hstrict : Runs.Meets (RingBound.step rotate cfg env) Strict s acts)
    (hnodup : (o.created ++ begun acts).Nodup)
    (h : Runs.run (RingBound.step rotate cfg env) s acts = some s') :
    ∃ o', Tracks rotate s' o' ∧ Filling rotate cfg.thresh 0 t₀ s' ∧ o'.created = o.created ++ begun acts ∧
      s'.nextCapture = s.nextCapture + (begun acts).length * rotate := by
  induction acts generalizing s o with
  | nil =>
    cases h
    exact ⟨o, ht, hfill, by simp [begun], by simp [begun]⟩
  | cons a acts ih =>
    obtain ⟨t, hstep, hrun⟩ := Runs.run_cons.mp h
    obtain ⟨hstrict, hrest⟩ := hstrict t hstep
    rw [begun_cons, ← List.append_assoc] at hnodup
    have hnew : ∀ n ∈ begun [a], n ∉ o.created := by
      intro n hn hmem
      have hdisjoint := List.disjoint_of_nodup_append (List.Nodup.of_append_left hnodup)
      exact hdisjoint hmem hn
    obtain ⟨o₁, ho₁, hcreated, hnext⟩ :=
      ht.step (by omega) hthresh hfill.timely.late hstrict hnew hstep
    obtain ⟨o', ho', hfill', hcreated', hnext'⟩ :=
      ih ho₁ (step_filling hrotate s a t hfill hstep) hrest (by rwa [hcreated]) hrun
    refine ⟨o', ho', hfill', ?_, ?_⟩
    · rw [hcreated', hcreated, begun_cons a acts, List.append_assoc]
    · rw [hnext', hnext, begun_cons a acts, List.length_append, Nat.cast_add]
      ring

theorem Start.tracks (h : RingBound.Start rotate 0 s) : Tracks rotate s ⟨s.fs, [], []⟩ := by
  have hempty : s.fs.names .ring = [] := List.length_eq_zero_iff.mp h.size
  have hnone : ∀ n f, s.fs.read ⟨.ring, n⟩ ≠ some f := by
    intro n f hf
    have hmem := FS.mem_names.mpr ⟨f, hf⟩
    rw [hempty] at hmem
    cases hmem
  exact ⟨rfl, RingOrder.fifo_empty hempty, fun n f _ hf => absurd hf (hnone n f),
    fun n f hf => absurd hf (hnone n f), fun n f hf _ => absurd hf (hnone n f)⟩

/-- What is in the ring was begun among the last, as many as there are in it. -/
theorem Tracks.position {i : Nat} {n : Name} {f : File} (ht : Tracks rotate s o) (hi : o.created[i]? = some n)
    (hf : s.fs.read ⟨.ring, n⟩ = some f) : o.created.length ≤ i + (ringPcaps s.fs).length := by
  have hrest : n ∈ o.rest := (ht.fifo.ring n).mp ⟨f, by rw [ht.files]; exact hf⟩
  obtain ⟨j, hj⟩ := List.mem_iff_getElem?.mp hrest
  rw [RingOrder.State.rest, List.getElem?_drop] at hj
  have hij : i = o.left.length + j :=
    (List.getElem?_inj (List.getElem?_eq_some_iff.mp hi).1 ht.fifo.nodup).mp (hi.trans hj.symm)
  have hlen := ht.fifo.length_ringPcaps
  rw [ht.files, RingOrder.State.rest, List.length_drop] at hlen
  omega

end

/-- **No capture waits long in the ring.** In every run of capture, packets and mover that
starts with an empty ring, with a threshold of two or more, captures rotated every
`rotate` seconds, ten or more, under names that are not used again, no packet at the very
time of the next rotation, and every move succeeding: a file that is in the ring was
begun no more than `cfg.thresh + 4 + rotate / 10` rotations ago. -/
theorem ring_wait_bounded (rotate : Nat) (cfg : Config) (env : Env) (s s' : State) (acts : List Act)
    (hrotate : 10 ≤ rotate) (hthresh : 2 ≤ cfg.thresh) (hstart : RingBound.Start rotate 0 s)
    (hstrict : Runs.Meets (RingBound.step rotate cfg env) Strict s acts) (hnames : (begun acts).Nodup)
    (hrun : Runs.run (RingBound.step rotate cfg env) s acts = some s') (i : Nat) (n : Name) (f : File)
    (hn : (begun acts)[i]? = some n) (hf : s'.fs.read ⟨.ring, n⟩ = some f) :
    s'.now ≤ s.nextCapture + i * rotate + (cfg.thresh + 4 + rotate / 10) * rotate := by
  obtain ⟨o, ho, hfill, hcreated, hnext⟩ :=
    (Start.tracks hstart).run hrotate hthresh (hstart.filling cfg.thresh) hstrict hnames hrun
  rw [List.nil_append] at hcreated
  have hpos : (begun acts).length ≤ i + (ringPcaps s'.fs).length := by
    rw [← hcreated]
    exact ho.position (hcreated ▸ hn) hf
  have hcount : ((ringPcaps s'.fs).length : ℚ) ≤ s'.level + rotate / timerSecs :=
    Level.count_le timerSecs_pos (by linarith [hfill.timely.late, hfill.timely.fire])
  have hlevel : ((ringPcaps s'.fs).length : ℚ) ≤ cfg.thresh + 4 + rotate / 10 := by
    have := hfill.level
    unfold timerSecs at hcount
    push_cast at this
    linarith
  calc
    s'.now ≤ s'.nextCapture := hfill.timely.capture
    _ = s.nextCapture + (begun acts).length * rotate := hnext
    _ ≤ s.nextCapture + (i + (ringPcaps s'.fs).length) * rotate := by
      gcongr
      exact_mod_cast hpos
    _ ≤ s.nextCapture + (i + (cfg.thresh + 4 + rotate / 10)) * rotate := by gcongr
    _ = s.nextCapture + i * rotate + (cfg.thresh + 4 + rotate / 10) * rotate := by ring

/-- Two files, the first with a packet in it. -/
def benchActs : List Act :=
  [.rotate "a.pcap", .fire noMounts "20260101", .write 5 [0x61], .rotate "b.pcap"]

theorem ring_wait_bounded_two :
    ∃ s, Runs.run (RingBound.step 10 { thresh := 2 } benchEnv) freshStart benchActs = some s ∧
      s.fs.contents ⟨.ring, "a.pcap"⟩ = some [0x61] ∧ s.now ≤ 70 := by
  have hend : (Runs.run (RingBound.step 10 { thresh := 2 } benchEnv) freshStart benchActs).map
      (fun s => s.fs.read ⟨.ring, "a.pcap"⟩) = some (some ⟨[0x61], 5⟩) := by
    decide +kernel
  obtain ⟨s, hrun, hf⟩ := Option.map_eq_some_iff.mp hend
  have hstrict : Runs.Meets (RingBound.step 10 { thresh := 2 } benchEnv) Strict freshStart benchActs := by
    refine fun s₁ h₁ => ⟨trivial, fun s₂ h₂ => ⟨trivial, fun s₃ h₃ => ⟨?_, fun s₄ h₄ => ⟨trivial, trivial⟩⟩⟩⟩
    obtain ⟨-, rfl⟩ := rotate_eq h₁
    obtain ⟨-, rfl⟩ := fire_eq h₂
    show (5 : ℚ) < 0 + (10 : Nat)
    norm_num
  have hwait := ring_wait_bounded 10 { thresh := 2 } benchEnv freshStart s benchActs (by decide) (by decide)
    (freshStart_start 10) hstrict (by decide) hrun 0 "a.pcap" _ rfl hf
  refine ⟨s, hrun, by rw [FS.contents, hf]; rfl, hwait.trans ?_⟩
  norm_num [freshStart]

end SeerSensor.RingWait
