/-
How full the ring gets. Capture rotates to a new file every `rotate_seconds`
and the timer unit runs the mover every ten seconds; a run moves at most one
file. So the rotation interval decides: at ten seconds and above the ring is
bounded whatever the threshold, below ten it is not, and the wizard admits
intervals from five.

Time passes from one event to the next. `level` over the ring's `*.pcap` files
is what a rotation, a move and an idle run change by a fixed amount each.
-/
import SeerSensor.Lib.Level
import SeerSensor.Lib.Runs
import SeerSensor.MoveOldestFacts

namespace SeerSensor.RingBound

open MoveOldest Raise Level

/-- `OnUnitActiveSec` of the mover's timer. -/
def timerSecs : Time := 10

/-- `OnBootSec`: the first run comes no later than this. -/
def bootSecs : Time := 30

/-- The files, the file capture writes to and the one it wrote to before, the
time, and when the next rotation and the next run of the mover are due. -/
structure State where
  fs : FS
  active : Option Name
  prev : Option Name
  now : Time
  nextCapture : Time
  nextFire : Time

/-- Packets, rotations and the timer. -/
inductive Act where
  /-- Packets reach the active file. -/
  | write (τ : Time) (b : Bytes)
  /-- Capture goes on to a new file. -/
  | rotate (n : Name)
  /-- The timer runs `main`, whose move succeeds. -/
  | fire (mounts : Mounts) (date : Date)

/-- The rotation is due, and the name is new in the ring. -/
def mayRotate (s : State) (n : Name) : Prop :=
  s.nextCapture ≤ s.nextFire ∧ globPcap n = true ∧ n ∉ s.fs.names .ring

instance (s : State) (n : Name) : Decidable (mayRotate s n) := inferInstanceAs (Decidable (_ ∧ _))

/-- Each at its time. -/
def step (rotate : Nat) (cfg : Config) (env : Env) (s : State) : Act → Option State
  | .write τ b => do
    let n ← s.active
    -- a file that was moved is not written in the ring any more
    let f ← s.fs.read ⟨.ring, n⟩
    if s.now ≤ τ ∧ τ ≤ s.nextCapture ∧ τ ≤ s.nextFire then
      some { s with fs := s.fs.write ⟨.ring, n⟩ ⟨f.bytes ++ b, τ⟩, now := τ }
    else
      none
  | .rotate n =>
    if mayRotate s n then
      some { s with
        fs := s.fs.write ⟨.ring, n⟩ ⟨[], s.nextCapture⟩
        active := some n
        prev := s.active
        now := s.nextCapture
        nextCapture := s.nextCapture + rotate }
    else
      none
  | .fire mounts date =>
    if s.nextFire ≤ s.nextCapture then
      some { s with
        fs := after (main cfg env { now := s.nextFire, mounts := mounts, date := date }) s.fs
        now := s.nextFire
        nextFire := s.nextFire + timerSecs }
    else
      none

/-- Where a run begins: `size` files in the ring, none from the future, and
both timers set. -/
structure Start (rotate size : Nat) (s : State) : Prop where
  size : (s.fs.names .ring).length = size
  mtimes : ∀ n f, s.fs.read ⟨.ring, n⟩ = some f → f.mtime ≤ s.now
  capture : s.now ≤ s.nextCapture ∧ s.nextCapture ≤ s.now + rotate
  fire : s.now ≤ s.nextFire ∧ s.nextFire ≤ s.now + bootSecs

/-- With this interval and threshold there is a bound for each initial size. -/
def Bounded (rotate thresh : Nat) : Prop :=
  ∀ size, ∃ B, ∀ (cfg : Config) (env : Env) (s s' : State) (acts : List Act), cfg.thresh = thresh →
    Start rotate size s → Runs.run (step rotate cfg env) s acts = some s' →
      (s'.fs.names .ring).length ≤ B

section
variable {rotate : Nat} {cfg : Config} {env : Env} {s s' : State}

/-! ## What an event does to the ring -/

theorem write_eq {τ : Time} {b : Bytes} (h : step rotate cfg env s (.write τ b) = some s') :
    ∃ n f, s.active = some n ∧ s.fs.read ⟨.ring, n⟩ = some f ∧ s.now ≤ τ ∧ τ ≤ s.nextCapture ∧
      τ ≤ s.nextFire ∧
      s' = { s with fs := s.fs.write ⟨.ring, n⟩ ⟨f.bytes ++ b, τ⟩, now := τ } := by
  simp only [step, Option.bind_eq_bind, Option.bind_eq_some_iff] at h
  obtain ⟨n, hn, f, hf, h⟩ := h
  split at h
  · next hτ => exact ⟨n, f, hn, hf, hτ.1, hτ.2.1, hτ.2.2, (Option.some.inj h).symm⟩
  · cases h

theorem rotate_eq {n : Name} (h : step rotate cfg env s (.rotate n) = some s') :
    mayRotate s n ∧ s' = { s with
      fs := s.fs.write ⟨.ring, n⟩ ⟨[], s.nextCapture⟩
      active := some n
      prev := s.active
      now := s.nextCapture
      nextCapture := s.nextCapture + rotate } := by
  simp only [step] at h
  split at h
  · next hmay => exact ⟨hmay, (Option.some.inj h).symm⟩
  · cases h

theorem fire_eq {mounts : Mounts} {date : Date}
    (h : step rotate cfg env s (.fire mounts date) = some s') :
    s.nextFire ≤ s.nextCapture ∧ s' = { s with
      fs := after (main cfg env { now := s.nextFire, mounts := mounts, date := date }) s.fs
      now := s.nextFire
      nextFire := s.nextFire + timerSecs } := by
  simp only [step] at h
  split at h
  · next hdue => exact ⟨hdue, (Option.some.inj h).symm⟩
  · cases h

theorem names_overwrite {fs : FS} {n : Name} {f g : File} (hf : fs.read ⟨.ring, n⟩ = some f) :
    ((fs.write ⟨.ring, n⟩ g).names .ring).Perm (fs.names .ring) := by
  refine FS.names_perm (fs.names_nodup .ring) fun m => ?_
  rw [FS.mem_names]
  by_cases hm : m = n
  · subst hm; simp [hf]
  · rw [FS.read_write_ne (by simpa using hm)]

theorem names_create {fs : FS} {n : Name} {g : File} (hn : n ∉ fs.names .ring) :
    ((fs.write ⟨.ring, n⟩ g).names .ring).Perm (n :: fs.names .ring) := by
  refine FS.names_perm (List.nodup_cons.mpr ⟨hn, fs.names_nodup .ring⟩) fun m => ?_
  rw [List.mem_cons, FS.mem_names]
  by_cases hm : m = n
  · subst hm; simp
  · rw [FS.read_write_ne (by simpa using hm)]; simp [hm]

/-- One run of the mover on the ring: it takes a `*.pcap` file, or there were
too few of them, or none was closed. -/
theorem main_takes (cfg : Config) (env : Env) (now : Time) (mounts : Mounts) (date : Date) (fs : FS) :
    (after (main cfg env { now := now, mounts := mounts, date := date }) fs = fs ∧
      ((ringPcaps fs).length < cfg.thresh ∨ ∀ p ∈ ringPcaps fs, closed now p.2 = false)) ∨
    ∃ x, globPcap x = true ∧
      (fs.names .ring).Perm
        (x :: (after (main cfg env { now := now, mounts := mounts, date := date }) fs).names .ring) ∧
      ∀ n f,
        (after (main cfg env { now := now, mounts := mounts, date := date }) fs).read ⟨.ring, n⟩ =
          some f →
        fs.read ⟨.ring, n⟩ = some f := by
  rcases main_cases cfg env { now := now, mounts := mounts, date := date } fs with
    ⟨hlt, h⟩ | ⟨hcount, h⟩
  · exact .inl ⟨h, .inl hlt⟩
  simp only [captureAll, List.foldl_nil] at h
  rw [h]
  cases hpick : pickOldestClosed now fs with
  | none =>
    left
    rcases pickAndMove_cases cfg env { now := now, mounts := mounts, date := date } fs with
      ⟨_, hsame⟩ | ⟨x, hx, _⟩
    · exact ⟨hsame, .inr (pickOldestClosed_none hpick)⟩
    · rw [hpick] at hx; cases hx
  | some x =>
    right
    obtain ⟨f, hf, hglob, -⟩ := pickOldestClosed_mem hpick
    have hgone : (after (pickAndMove cfg env { now := now, mounts := mounts, date := date })
      fs).read ⟨.ring, x⟩ = none :=
      pickAndMove_takes cfg env hpick rfl rfl
    rcases pickAndMove_ring cfg env { now := now, mounts := mounts, date := date } fs with
      hsame | ⟨y, hy, -, hother⟩
    · rw [hsame, hf] at hgone; cases hgone
    obtain rfl : x = y := Option.some.inj (hpick.symm.trans hy)
    refine ⟨x, hglob, ?_, fun n g hg => ?_⟩
    · have hnodup := FS.names_nodup
        (after (pickAndMove cfg env { now := now, mounts := mounts, date := date }) fs) .ring
      refine FS.names_perm (List.nodup_cons.mpr ⟨?_, hnodup⟩) fun m => ?_
      · rw [FS.mem_names, hgone]; simp
      · rw [List.mem_cons, FS.mem_names]
        by_cases hm : m = x
        · subst hm; simp [hf]
        · rw [hother m hm]; simp [hm]
    · by_cases hn : n = x
      · subst hn; rw [hgone] at hg; cases hg
      · rw [← hother n hn]; exact hg

theorem pcaps_perm {fs fs' : FS} (h : (fs'.names .ring).Perm (fs.names .ring)) :
    (ringPcaps fs').length = (ringPcaps fs).length := by
  rw [length_ringPcaps, length_ringPcaps, (h.filter globPcap).length_eq]

theorem pcaps_cons {fs fs' : FS} {n : Name} (hn : globPcap n = true)
    (h : (fs'.names .ring).Perm (n :: fs.names .ring)) :
    (ringPcaps fs').length = (ringPcaps fs).length + 1 := by
  rw [length_ringPcaps, length_ringPcaps, (h.filter globPcap).length_eq, List.filter_cons_of_pos hn,
    List.length_cons]

/-! ## Every file but the two newest is closed -/

/-- A run that began at `t₀`: the due times are not overtaken, the active file
may have been written just now, the one before it until the last rotation, and
every other until the rotation before that or before the run began. -/
structure Timely (rotate : Nat) (t₀ : Time) (s : State) : Prop where
  start : t₀ ≤ s.now
  late : s.nextCapture - rotate ≤ s.now
  capture : s.now ≤ s.nextCapture
  fire : s.now ≤ s.nextFire
  recent : ∀ n f, s.fs.read ⟨.ring, n⟩ = some f → f.mtime ≤ s.now
  rest : ∀ n f, s.fs.read ⟨.ring, n⟩ = some f → some n ≠ s.active →
    f.mtime ≤ s.nextCapture - rotate ∨ f.mtime ≤ t₀
  older : ∀ n f, s.fs.read ⟨.ring, n⟩ = some f → some n ≠ s.active → some n ≠ s.prev →
    f.mtime ≤ s.nextCapture - 2 * rotate ∨ f.mtime ≤ t₀

theorem Start.timely {size : Nat} (h : Start rotate size s) : Timely rotate s.now s where
  start := le_rfl
  late := by linarith [h.capture.2]
  capture := h.capture.1
  fire := h.fire.1
  recent := h.mtimes
  rest n f hf _ := .inr (h.mtimes n f hf)
  older n f hf _ _ := .inr (h.mtimes n f hf)

theorem Timely.written {t₀ τ : Time} {b : Bytes} (hs : Timely rotate t₀ s)
    (h : step rotate cfg env s (.write τ b) = some s') : Timely rotate t₀ s' := by
  obtain ⟨n, g, hn, hg, hnow, hcap, hfire, rfl⟩ := write_eq h
  have hother : ∀ m f, (s.fs.write ⟨.ring, n⟩ ⟨g.bytes ++ b, τ⟩).read ⟨.ring, m⟩ = some f → m ≠ n →
      s.fs.read ⟨.ring, m⟩ = some f := by
    intro m f hf hm
    rwa [FS.read_write_ne (by simpa using hm)] at hf
  have hactive : ∀ m, some m ≠ s.active → m ≠ n := fun m hm he => hm (by rw [he, hn])
  refine ⟨hs.start.trans hnow, hs.late.trans hnow, hcap, hfire, fun m f hf => ?_, fun m f hf hm => ?_,
    fun m f hf hm hp => ?_⟩
  · by_cases hmn : m = n
    · subst hmn
      rw [FS.read_write_self, Option.some.injEq] at hf
      rw [← hf]
    · exact (hs.recent m f (hother m f hf hmn)).trans hnow
  · exact hs.rest m f (hother m f hf (hactive m hm)) hm
  · exact hs.older m f (hother m f hf (hactive m hm)) hm hp

theorem Timely.rotated {t₀ : Time} {n : Name} (hs : Timely rotate t₀ s)
    (h : step rotate cfg env s (.rotate n) = some s') : Timely rotate t₀ s' := by
  obtain ⟨⟨hdue, -, hnew⟩, rfl⟩ := rotate_eq h
  have hr : (0 : ℚ) ≤ rotate := Nat.cast_nonneg _
  have hother : ∀ m f, (s.fs.write ⟨.ring, n⟩ ⟨[], s.nextCapture⟩).read ⟨.ring, m⟩ = some f → m ≠ n →
      s.fs.read ⟨.ring, m⟩ = some f := by
    intro m f hf hm
    rwa [FS.read_write_ne (by simpa using hm)] at hf
  have hactive : ∀ m, some m ≠ some n → m ≠ n := fun m hm he => hm (by rw [he])
  refine ⟨hs.start.trans hs.capture, ?_, ?_, hdue, fun m f hf => ?_, fun m f hf hm => ?_,
    fun m f hf hm hp => ?_⟩
  · show s.nextCapture + rotate - rotate ≤ s.nextCapture
    linarith
  · show s.nextCapture ≤ s.nextCapture + rotate
    linarith
  · show f.mtime ≤ s.nextCapture
    by_cases hmn : m = n
    · subst hmn
      rw [FS.read_write_self, Option.some.injEq] at hf
      rw [← hf]
    · exact (hs.recent m f (hother m f hf hmn)).trans hs.capture
  -- what was active until now was last written before this rotation
  · left
    show f.mtime ≤ s.nextCapture + rotate - rotate
    linarith [hs.recent m f (hother m f hf (hactive m hm)), hs.capture]
  · rcases hs.rest m f (hother m f hf (hactive m hm)) hp with h | h
    · left
      show f.mtime ≤ s.nextCapture + rotate - 2 * rotate
      linarith
    · exact .inr h

theorem Timely.fired {t₀ : Time} {mounts : Mounts} {date : Date} (hs : Timely rotate t₀ s)
    (h : step rotate cfg env s (.fire mounts date) = some s') : Timely rotate t₀ s' := by
  obtain ⟨hdue, rfl⟩ := fire_eq h
  have hold : ∀ n f,
      (after (main cfg env { now := s.nextFire, mounts := mounts, date := date }) s.fs).read
        ⟨.ring, n⟩ = some f → s.fs.read ⟨.ring, n⟩ = some f := by
    rcases main_takes cfg env s.nextFire mounts date s.fs with ⟨hsame, _⟩ | ⟨x, -, -, hold⟩
    · rw [hsame]; exact fun _ _ hf => hf
    · exact hold
  refine ⟨hs.start.trans hs.fire, hs.late.trans hs.fire, hdue, ?_, fun n f hf => ?_,
    fun n f hf hn => ?_,
    fun n f hf hn hp => ?_⟩
  · show s.nextFire ≤ s.nextFire + timerSecs
    unfold timerSecs
    linarith
  · exact (hs.recent n f (hold n f hf)).trans hs.fire
  · exact hs.rest n f (hold n f hf) hn
  · exact hs.older n f (hold n f hf) hn hp

/-- Once the files of before have been quiet, a run that finds no closed file
finds at most the active one and the one before it. -/
theorem Timely.few {t₀ : Time} (hs : Timely rotate t₀ s) (hrotate : 3 ≤ rotate)
    (hquiet : t₀ + quietSecs ≤ s.nextFire)
    (hopen : ∀ p ∈ ringPcaps s.fs, closed s.nextFire p.2 = false) : (ringPcaps s.fs).length ≤ 2 := by
  have hr : (3 : ℚ) ≤ rotate := by exact_mod_cast hrotate
  have hsub : (ringPcaps s.fs).map (·.1) ⊆ s.active.toList ++ s.prev.toList := by
    intro n hn
    obtain ⟨⟨m, f⟩, hmem, rfl⟩ := List.mem_map.mp hn
    have hyoung := hopen _ hmem
    simp only [closed, decide_eq_false_iff_not, not_le, ge_iff_le, quietSecs] at hyoung hquiet
    rw [List.mem_append, Option.mem_toList, Option.mem_toList]
    by_contra hneither
    rw [not_or] at hneither
    have hread := (mem_ringPcaps.mp hmem).1
    rcases hs.older m f hread (fun he => hneither.1 he.symm) (fun he => hneither.2 he.symm) with h | h
    · linarith [hs.late, hs.fire]
    · linarith
  have hnodup : ((ringPcaps s.fs).map (·.1)).Nodup := by
    rw [map_ringPcaps]
    exact (s.fs.names_nodup .ring).filter _
  have hlen := (List.subperm_of_subset hnodup hsub).length_le
  have ha : s.active.toList.length ≤ 1 := by cases s.active <;> simp
  have hp : s.prev.toList.length ≤ 1 := by cases s.prev <;> simp
  rw [List.length_map, List.length_append] at hlen
  omega

/-! ## At ten seconds and above the level does not rise -/

/-- The level of the ring's `*.pcap` files. -/
def State.level (s : State) : ℚ :=
    Level.level timerSecs (ringPcaps s.fs).length s.nextCapture s.nextFire

theorem timerSecs_pos : 0 < timerSecs := by unfold timerSecs; norm_num

/-- The invariant: the level is bounded, and lower before anything is closed. -/
structure Filling (rotate thresh size : Nat) (t₀ : Time) (s : State) : Prop where
  timely : Timely rotate t₀ s
  level : s.level ≤ size + thresh + 4
  /-- Before anything of the start can be closed the timer goes off once at most. -/
  early : s.nextFire < t₀ + quietSecs → s.level ≤ size + 3
  others : (s.fs.names .ring).length ≤ (ringPcaps s.fs).length + size

theorem Start.filling {size : Nat} (h : Start rotate size s) (thresh : Nat) :
    Filling rotate thresh size s.now s := by
  have hcount : (ringPcaps s.fs).length ≤ size := by
    rw [length_ringPcaps, ← h.size]
    exact List.length_filter_le _ _
  have hlevel : s.level ≤ size + 3 := by
    have hc : ((ringPcaps s.fs).length : ℚ) ≤ size := by exact_mod_cast hcount
    have hgap : (s.nextFire - s.nextCapture) / timerSecs ≤ 3 := by
      rw [div_le_iff₀ timerSecs_pos]
      have := h.fire.2
      simp only [bootSecs, timerSecs] at this ⊢
      linarith [h.capture.1]
    unfold State.level Level.level
    linarith
  have ht : (0 : ℚ) ≤ thresh := Nat.cast_nonneg _
  refine ⟨h.timely, by linarith, fun _ => hlevel, ?_⟩
  rw [h.size]
  omega

theorem Filling.written {thresh size : Nat} {t₀ τ : Time} {b : Bytes}
    (hs : Filling rotate thresh size t₀ s)
    (h : step rotate cfg env s (.write τ b) = some s') : Filling rotate thresh size t₀ s' := by
  have htimely := hs.timely.written h
  obtain ⟨n, g, -, hg, -, -, -, rfl⟩ := write_eq h
  have hnames := names_overwrite (g := ⟨g.bytes ++ b, τ⟩) hg
  have hcount := pcaps_perm hnames
  refine ⟨htimely, ?_, ?_, ?_⟩
  · simp only [State.level, hcount]; exact hs.level
  · simp only [State.level, hcount]; exact hs.early
  · simp only [hnames.length_eq, hcount]; exact hs.others

theorem Filling.rotated {thresh size : Nat} {t₀ : Time} {n : Name} (hrotate : 10 ≤ rotate)
    (hs : Filling rotate thresh size t₀ s) (h : step rotate cfg env s (.rotate n) = some s') :
    Filling rotate thresh size t₀ s' := by
  have htimely := hs.timely.rotated h
  obtain ⟨⟨-, hglob, hnew⟩, rfl⟩ := rotate_eq h
  have hnames := names_create (g := ⟨[], s.nextCapture⟩) hnew
  have hcount := pcaps_cons hglob hnames
  have hfalls : 1 - (rotate : ℚ) / timerSecs ≤ 0 := by
    have hr : (10 : ℚ) ≤ rotate := by exact_mod_cast hrotate
    rw [sub_nonpos, le_div_iff₀ timerSecs_pos]
    unfold timerSecs
    linarith
  have hlevel : Level.level timerSecs ((ringPcaps s.fs).length + 1) (s.nextCapture + rotate)
    s.nextFire ≤ s.level := by
    rw [level_arrive timerSecs_pos]
    unfold State.level
    linarith
  refine ⟨htimely, ?_, fun hearly => ?_, ?_⟩
  · simp only [State.level, hcount]; exact hlevel.trans hs.level
  · simp only [State.level, hcount]; exact hlevel.trans (hs.early hearly)
  · simp only [hnames.length_eq, hcount, List.length_cons]
    have := hs.others
    omega

theorem Filling.fired {size : Nat} {t₀ : Time} {mounts : Mounts} {date : Date} (hrotate : 10 ≤ rotate)
    (hs : Filling rotate cfg.thresh size t₀ s)
    (h : step rotate cfg env s (.fire mounts date) = some s') :
    Filling rotate cfg.thresh size t₀ s' := by
  have htimely := hs.timely.fired h
  have hpast : ¬ s.nextFire + timerSecs < t₀ + quietSecs := by
    have := hs.timely.start.trans hs.timely.fire
    simp only [timerSecs, quietSecs]
    linarith
  obtain ⟨hdue, rfl⟩ := fire_eq h
  rcases main_takes cfg env s.nextFire mounts date s.fs with ⟨hsame, hidle⟩ | ⟨x, hglob, hnames, -⟩
  · rw [hsame] at htimely ⊢
    refine ⟨htimely, ?_, fun hearly => absurd hearly hpast, hs.others⟩
    by_cases hearly : s.nextFire < t₀ + quietSecs
    · have hlevel := hs.early hearly
      have ht : (0 : ℚ) ≤ cfg.thresh := Nat.cast_nonneg _
      simp only [State.level] at hlevel ⊢
      rw [level_idle timerSecs_pos]
      linarith
    · have hfew : (ringPcaps s.fs).length ≤ cfg.thresh + 2 := by
        rcases hidle with hlt | hopen
        · omega
        · have := hs.timely.few (by omega) (not_lt.mp hearly) hopen
          omega
      have hlevel := level_idle_le timerSecs_pos hdue hfew
      have hz : (0 : ℚ) ≤ size := Nat.cast_nonneg _
      simp only [State.level]
      push_cast at hlevel
      linarith
  · have hcount := pcaps_cons hglob hnames
    have hsize := hnames.length_eq
    refine ⟨htimely, ?_, fun hearly => absurd hearly hpast, ?_⟩
    · have hlevel := hs.level
      simp only [State.level, hcount] at hlevel ⊢
      rw [level_take timerSecs_pos]
      exact hlevel
    · have := hs.others
      simp only [List.length_cons] at hsize
      simp only
      omega

theorem step_filling {size : Nat} {t₀ : Time} (hrotate : 10 ≤ rotate) (s : State) (a : Act) (s' : State)
    (hs : Filling rotate cfg.thresh size t₀ s) (h : step rotate cfg env s a = some s') :
    Filling rotate cfg.thresh size t₀ s' := by
  cases a with
  | write τ b => exact hs.written h
  | rotate n => exact hs.rotated hrotate h
  | fire mounts date => exact hs.fired hrotate h

theorem Filling.size_le {thresh size : Nat} {t₀ : Time} (hs : Filling rotate thresh size t₀ s) :
    (s.fs.names .ring).length ≤ 2 * size + thresh + rotate + 4 := by
  have hcount : ((ringPcaps s.fs).length : ℚ) ≤ s.level + rotate / timerSecs :=
    count_le timerSecs_pos (by linarith [hs.timely.late, hs.timely.fire])
  have hr : (rotate : ℚ) / timerSecs ≤ rotate := by
    rw [div_le_iff₀ timerSecs_pos]
    have hnonneg : (0 : ℚ) ≤ rotate := Nat.cast_nonneg _
    unfold timerSecs
    linarith
  have hle : ((ringPcaps s.fs).length : ℚ) ≤ (size + thresh + rotate + 4 : Nat) := by
    push_cast
    linarith [hs.level]
  have : (ringPcaps s.fs).length ≤ size + thresh + rotate + 4 := by exact_mod_cast hle
  have := hs.others
  omega

theorem bounded_of_le (thresh : Nat) (hrotate : 10 ≤ rotate) : Bounded rotate thresh := by
  intro size
  refine ⟨2 * size + thresh + rotate + 4, fun cfg env s s' acts hthresh hs hrun => ?_⟩
  subst hthresh
  exact (Runs.invariant (step_filling hrotate) (hs.filling cfg.thresh) hrun).size_le

/-! ## Below ten seconds it does -/

/-- A `*.pcap` name the ring does not hold: one longer than all it holds. -/
theorem exists_fresh (fs : FS) : ∃ n, globPcap n = true ∧ n ∉ fs.names .ring := by
  have hlen : ∀ l : List Name, ∃ k, ∀ m ∈ l, m.toList.length ≤ k := by
    intro l
    induction l with
    | nil => exact ⟨0, by simp⟩
    | cons m l ih =>
      obtain ⟨k, hk⟩ := ih
      refine ⟨max k m.toList.length, fun x hx => ?_⟩
      rcases List.mem_cons.mp hx with rfl | hx
      · exact le_max_right _ _
      · exact (hk x hx).trans (le_max_left _ _)
  obtain ⟨k, hk⟩ := hlen (fs.names .ring)
  refine ⟨String.ofList (List.replicate k 'a' ++ ".pcap".toList), ?_, fun hmem => ?_⟩
  · simp only [globPcap, List.isSuffixOf_iff_suffix, String.toList_ofList]
    exact List.suffix_append _ _
  · have h := hk _ hmem
    rw [String.toList_ofList, List.length_append, List.length_replicate] at h
    have : (".pcap".toList).length = 5 := by decide
    omega

/-- Neither timer is more than its own period ahead of the other. -/
structure Even (rotate : Nat) (s : State) : Prop where
  late : s.nextCapture ≤ s.nextFire + rotate
  due : s.nextFire ≤ s.nextCapture + timerSecs

theorem Even.rotates (cfg : Config) (env : Env) (hs : Even rotate s)
    (hdue : s.nextCapture ≤ s.nextFire) :
    ∃ n s', step rotate cfg env s (.rotate n) = some s' ∧ Even rotate s' ∧
      s'.level = s.level + (1 - rotate / timerSecs) := by
  obtain ⟨n, hglob, hnew⟩ := exists_fresh s.fs
  have hr : (0 : ℚ) ≤ rotate := Nat.cast_nonneg _
  have hcount := pcaps_cons hglob (names_create (g := ⟨[], s.nextCapture⟩) hnew)
  refine ⟨n, _, if_pos ⟨hdue, hglob, hnew⟩, ⟨?_, ?_⟩, ?_⟩
  · show s.nextCapture + rotate ≤ s.nextFire + rotate
    linarith
  · show s.nextFire ≤ s.nextCapture + rotate + timerSecs
    linarith [hs.due]
  · simp only [State.level, hcount]
    exact level_arrive timerSecs_pos

theorem Even.fires (cfg : Config) (env : Env) (hs : Even rotate s) (hdue : s.nextFire ≤ s.nextCapture) :
    ∃ s', step rotate cfg env s (.fire noMounts "") = some s' ∧ Even rotate s' ∧ s.level ≤ s'.level ∧
      s'.nextCapture = s.nextCapture ∧ s'.nextFire = s.nextFire + timerSecs := by
  have hp := timerSecs_pos
  refine ⟨_, if_pos hdue, ⟨?_, ?_⟩, ?_, rfl, rfl⟩
  · show s.nextCapture ≤ s.nextFire + timerSecs + rotate
    linarith [hs.late]
  · show s.nextFire + timerSecs ≤ s.nextCapture + timerSecs
    linarith
  · simp only [State.level]
    rcases main_takes cfg env s.nextFire noMounts "" s.fs with ⟨hsame, _⟩ | ⟨x, hglob, hnames, -⟩
    · rw [hsame, level_idle hp]
      linarith
    · rw [level_take hp, pcaps_cons hglob hnames]

/-- A rotation is never more than one run away, and it raises the level. -/
theorem Even.grows (cfg : Config) (env : Env) (hrotate : rotate < 10) (hs : Even rotate s) :
    ∃ acts s', Runs.run (step rotate cfg env) s acts = some s' ∧ Even rotate s' ∧
      s.level + 1 / 10 ≤ s'.level := by
  have hrise : (1 : ℚ) / 10 ≤ 1 - rotate / timerSecs := by
    have hr : (rotate : ℚ) ≤ 9 := by exact_mod_cast Nat.le_of_lt_succ hrotate
    unfold timerSecs
    linarith
  by_cases hdue : s.nextCapture ≤ s.nextFire
  · obtain ⟨n, s', h, hs', hlevel⟩ := hs.rotates cfg env hdue
    exact ⟨[.rotate n], s', Runs.run_cons.mpr ⟨s', h, rfl⟩, hs', by linarith⟩
  · obtain ⟨t, ht, hst, hlevel, hcap, hfire⟩ := hs.fires cfg env (le_of_not_ge hdue)
    have hdue' : t.nextCapture ≤ t.nextFire := by
      have hr : (rotate : ℚ) < 10 := by exact_mod_cast hrotate
      rw [hcap, hfire]
      unfold timerSecs
      linarith [hs.late]
    obtain ⟨n, s', h, hs', hlevel'⟩ := hst.rotates cfg env hdue'
    exact ⟨[.fire noMounts "", .rotate n], s',
      Runs.run_cons.mpr ⟨t, ht, Runs.run_cons.mpr ⟨s', h, rfl⟩⟩, hs',
      by linarith⟩

theorem Even.grows_by (cfg : Config) (env : Env) (hrotate : rotate < 10) (hs : Even rotate s)
    (k : Nat) :
    ∃ acts s', Runs.run (step rotate cfg env) s acts = some s' ∧ Even rotate s' ∧
      s.level + k / 10 ≤ s'.level := by
  induction k with
  | zero => exact ⟨[], s, rfl, hs, by simp⟩
  | succ k ih =>
    obtain ⟨acts, t, hrun, ht, hlevel⟩ := ih
    obtain ⟨acts', s', hrun', hs', hlevel'⟩ := ht.grows cfg env hrotate
    refine ⟨acts ++ acts', s', Runs.run_append.mpr ⟨t, hrun, hrun'⟩, hs', ?_⟩
    push_cast
    linarith

/-- Capture and the timer start together on an empty ring. -/
def freshStart : State := ⟨.empty, none, none, 0, 0, 0⟩

theorem freshStart_start (rotate : Nat) : Start rotate 0 freshStart := by
  have hr : (0 : ℚ) ≤ rotate := Nat.cast_nonneg _
  refine ⟨rfl, fun n f hf => ?_, ⟨le_rfl, ?_⟩, le_rfl, ?_⟩
  · cases hf
  · show (0 : ℚ) ≤ 0 + rotate
    linarith
  · simp only [freshStart, bootSecs]
    norm_num

theorem not_bounded_of_lt (thresh : Nat) (hrotate : rotate < 10) : ¬ Bounded rotate thresh := by
  intro hbounded
  obtain ⟨B, hB⟩ := hbounded 0
  have hr : (0 : ℚ) ≤ rotate := Nat.cast_nonneg _
  have heven : Even rotate freshStart := by
    refine ⟨?_, ?_⟩
    · show (0 : ℚ) ≤ 0 + rotate
      linarith
    · show (0 : ℚ) ≤ 0 + timerSecs
      linarith [timerSecs_pos]
  obtain ⟨acts, s, hrun, hs, hlevel⟩ := heven.grows_by { thresh := thresh } benchEnv hrotate
    (10 * (B + 2))
  have hsize := hB _ _ _ _ _ rfl (freshStart_start rotate) hrun
  have hcount : (ringPcaps s.fs).length ≤ B := by
    rw [length_ringPcaps]
    exact (List.length_filter_le _ _).trans hsize
  have hle : s.level ≤ (ringPcaps s.fs).length + 1 := level_le timerSecs_pos hs.due
  have hzero : freshStart.level = 0 := by
    simp [State.level, Level.level, freshStart, ringPcaps, FS.names, FS.empty]
  have hc : ((ringPcaps s.fs).length : ℚ) ≤ B := by exact_mod_cast hcount
  rw [hzero] at hlevel
  push_cast at hlevel
  linarith

end

/-- **The ring is bounded from ten seconds on.** For every interval and
threshold, those the wizard admits among them, there is a bound for each
initial size of the ring on what it holds in any run of any length exactly
when the interval is at least the timer's ten seconds. -/
theorem ring_bounded_iff (rotate thresh : Nat) : Bounded rotate thresh ↔ 10 ≤ rotate := by
  refine ⟨fun h => ?_, bounded_of_le thresh⟩
  by_contra hlt
  exact not_bounded_of_lt thresh (Nat.lt_of_not_le hlt) h

/-- The wizard's smallest interval and threshold. -/
theorem ring_unbounded_five : ¬ Bounded 5 2 := not_bounded_of_lt 2 (by decide)

end SeerSensor.RingBound
