/-
`seer-verify-install.sh`: top up the ring with dummies, let the mover run once
with capture stopped, and remove the dummies again from the ring, the backlog and
the `pcap` tree of every mounted candidate.

Only what is named as a dummy is ever removed, so the captures are afterwards as
the one run of the mover left them. But the check has its own default for the
mount candidates, one where the mover has three: on a sensor that configures none,
with the drive at one of the other two, a dummy goes to the drive and stays there.
And the paths of the ring and the backlog are quoted where the dummies are made, and
not where they are removed: with a blank in them the dummies stay too.
-/
import SeerSensor.ConsoleDrive
import SeerSensor.MoveOldestFacts
import SeerSensor.RingCount

namespace SeerSensor.InstallCheck

open MoveOldest RingCount Raise

/-- `SEER-DUMMY-*.pcap*`. -/
def isDummy (n : Name) : Bool :=
  "SEER-DUMMY-".toList.isPrefixOf n.toList &&
    decide (".pcap".toList <:+: n.toList.drop "SEER-DUMMY-".toList.length)

/-- Remove what matches. -/
def sweep (P : Path → Bool) (fs : FS) : FS := (fs.files.keys.filter P).foldl FS.remove fs

/-- What one run of the check meets. -/
structure Check extends Verifier where
  backlogDir : String := "/opt/seer/var/backlog"
  config : Console.Config := {}
  /-- The mover's run; none when its unit does not start. -/
  mover : Option MoverRun
  /-- What capture writes once it is started again. -/
  captured : List (Name × File) := []
  /-- The mounts at the end, when the dummies are removed. -/
  mounts : Mounts
  /-- Files that cannot be removed; the check does not notice. -/
  stuck : Path → Bool := fun _ => false
  /-- The directories that `rm` is led to where the shell makes other words of a path. -/
  astray : Dir → Bool := fun _ => false

namespace Check

/-- The mover's configuration, from the same document. -/
def moverConfig (c : Check) : MoveOldest.Config where
  thresh := c.thresh
  backlogDir := c.backlogDir
  mountCandidates := c.config.exporterCandidates
  minFreePct := c.config.minFreePct

/-- The mount candidates of `cleanup_dummy`, whose default is the console's. -/
def candidates (c : Check) : List String := c.config.consoleCandidates

/-- Where `cleanup_dummy` looks: the ring and the backlog, if their paths are what they
say without quotes, and the drives. -/
def swept (c : Check) (dir : Dir) : Bool :=
  c.astray dir || match dir with
    | .ring => ShellWords.isBare c.path.text
    | .backlog => ShellWords.isBare c.backlogDir
    | .pcap drive _ => c.candidates.any fun m => m ≠ "" && c.mounts.ismount m && c.mounts.volume m = drive

/-- The files once the dummies are written. -/
def toppedUp (c : Check) (r : Ring) : FS := (c.topUp r).fs

/-- The files after the mover's run. -/
def moved (c : Check) (env : Env) (r : Ring) : FS :=
  match c.mover with
  | none => c.toppedUp r
  | some run => after (main c.moverConfig env run) (c.toppedUp r)

/-- `cleanup_dummy`. -/
def cleanupDummy (c : Check) (fs : FS) : FS :=
  sweep (fun p => c.swept p.dir && isDummy p.name && !c.stuck p) fs

/-- The files after the check. -/
def verify (c : Check) (env : Env) (r : Ring) : FS :=
  c.cleanupDummy (captureAll (c.moved env r) c.captured)

/-- The mover's run puts its target, whole or in part, at the path. -/
def Places (c : Check) (env : Env) (r : Ring) (p : Path) : Prop :=
  ∃ run n, c.mover = some run ∧ c.thresh ≤ (ringPcaps (c.toppedUp r)).length ∧
    pickOldestClosed run.now (c.toppedUp r) = some n ∧ p = ⟨destDir c.moverConfig run, n⟩ ∧
    (p.dir = .backlog ∨ run.mkdir = none) ∧ ¬ run.move.stopsEarly (env.sameDev ⟨.ring, n⟩ p.dir)

/-- The mover's run takes the file out of the ring. -/
def Takes (c : Check) (env : Env) (r : Ring) (n : Name) : Prop :=
  (∃ f, (c.toppedUp r).read ⟨.ring, n⟩ = some f) ∧ (c.moved env r).read ⟨.ring, n⟩ = none

end Check

/-! ## Sweeping -/

theorem foldl_remove_read {ps : List Path} {fs : FS} {p : Path} :
    (ps.foldl FS.remove fs).read p = if p ∈ ps then none else fs.read p := by
  induction ps generalizing fs with
  | nil => simp
  | cons q ps ih =>
    rw [List.foldl_cons, ih]
    by_cases hpq : p = q
    · subst hpq
      simp
    · simp [hpq, FS.read_remove_ne hpq]

theorem sweep_read (P : Path → Bool) (fs : FS) (p : Path) :
    (sweep P fs).read p = if P p then none else fs.read p := by
  rw [sweep, foldl_remove_read]
  by_cases hP : P p = true
  · rw [if_pos hP]
    split_ifs with hmem
    · rfl
    · rw [List.mem_filter, not_and_or] at hmem
      have hkey : p ∉ fs.files.keys := hmem.resolve_right fun h => h hP
      exact AList.lookup_eq_none.mpr fun h => hkey (AList.mem_keys.mp h)
  · rw [if_neg hP, if_neg fun hmem => hP (List.mem_filter.mp hmem).2]

section
variable {c : Check} {env : Env} {r : Ring} {p : Path} {n : Name}

theorem isDummy_dummyName (secs i : Nat) : isDummy (dummyName secs i) = true := by
  have hname : (dummyName secs i).toList = "SEER-DUMMY-".toList ++
      ((toString secs).toList ++ '-' :: (toString i).toList ++ ".pcap".toList) := by
    simp [dummyName]
  unfold isDummy
  rw [hname, List.drop_left, Bool.and_eq_true, List.isPrefixOf_iff_prefix, decide_eq_true_eq]
  exact ⟨List.prefix_append _ _, (List.suffix_append _ _).isInfix⟩

theorem create_read (f : File) (r : Ring) (hp : p ≠ ⟨.ring, n⟩) :
    (create f r n).fs.read p = r.fs.read p := by
  unfold create
  split_ifs
  · rfl
  · exact FS.read_write_ne hp

theorem foldl_create_read (f : File) {ns : List Name} (hp : ∀ n ∈ ns, p ≠ ⟨.ring, n⟩) (r : Ring) :
    (ns.foldl (create f) r).fs.read p = r.fs.read p := by
  induction ns generalizing r with
  | nil => rfl
  | cons n ns ih =>
    obtain ⟨hn, hns⟩ := List.forall_mem_cons.mp hp
    rw [List.foldl_cons, ih hns, create_read f r hn]

theorem toppedUp_read (c : Check) (r : Ring) (hp : p.dir ≠ .ring ∨ isDummy p.name = false) :
    (c.toppedUp r).read p = r.fs.read p := by
  unfold Check.toppedUp Verifier.topUp
  split_ifs
  · refine foldl_create_read _ (fun n hn => ?_) r
    obtain ⟨i, -, rfl⟩ := List.mem_map.mp hn
    rintro rfl
    rcases hp with hp | hp
    · exact hp rfl
    · cases (isDummy_dummyName _ _).symm.trans hp
  · rfl

theorem verify_read (c : Check) (env : Env) (r : Ring) (p : Path) :
    (c.verify env r).read p =
      if c.swept p.dir && isDummy p.name && !c.stuck p then none
      else (captureAll (c.moved env r) c.captured).read p := by
  rw [Check.verify, Check.cleanupDummy, sweep_read]

/-- What the mover's run does in the check: nothing at all, or it starts to move one
file of the ring, and then it places that one only. -/
theorem moved_cases (hbetween : ∀ run, c.mover = some run → run.between = []) (env : Env) (r : Ring) :
    (c.moved env r = c.toppedUp r ∧ ∀ p, ¬ c.Places env r p) ∨
    ∃ run n f, c.mover = some run ∧ (c.toppedUp r).read ⟨.ring, n⟩ = some f ∧ globPcap n = true ∧
      (∀ p, c.Places env r p ↔ p = ⟨destDir c.moverConfig run, n⟩) ∧
      MoveEnd env run.move ⟨.ring, n⟩ ⟨destDir c.moverConfig run, n⟩ f (c.toppedUp r) (c.moved env r) := by
  cases hmover : c.mover with
  | none =>
    refine .inl ⟨by rw [Check.moved, hmover], ?_⟩
    rintro p ⟨run, n, hrun, -⟩
    cases hmover.symm.trans hrun
  | some run =>
    have hmoved : c.moved env r = after (main c.moverConfig env run) (c.toppedUp r) := by
      rw [Check.moved, hmover]
    rcases main_cases c.moverConfig env run (c.toppedUp r) with ⟨hfew, hsame⟩ | ⟨henough, hpicks⟩
    · refine .inl ⟨by rw [hmoved, hsame], ?_⟩
      rintro p ⟨run', n, hrun, henough, -⟩
      exact absurd henough (Nat.not_le.mpr hfew)
    rw [hbetween run hmover, captureAll, List.foldl_nil] at hpicks
    rcases pickAndMove_cases c.moverConfig env run (c.toppedUp r) with
      ⟨hnone, hsame⟩ | ⟨n, hn, ⟨hdest, hmkdir, hsame⟩ | ⟨hmkdir, hmove⟩⟩
    · refine .inl ⟨by rw [hmoved, hpicks, hsame], ?_⟩
      rintro p ⟨run', n, hrun, -, hn, -⟩
      cases hmover.symm.trans hrun
      cases hnone.symm.trans hn
    · refine .inl ⟨by rw [hmoved, hpicks, hsame], ?_⟩
      rintro p ⟨run', n', hrun, -, -, rfl, hmade, -⟩
      cases hmover.symm.trans hrun
      exact hmade.elim hdest hmkdir
    · obtain ⟨f, hf, hglob, -⟩ := pickOldestClosed_mem hn
      rcases shutilMove_ends env run.move (ring_ne_dest c.moverConfig run n n) hf with
        ⟨hstops, hsame⟩ | ⟨hgoes, hend⟩
      · refine .inl ⟨by rw [hmoved, hpicks, hmove, hsame], ?_⟩
        rintro p ⟨run', n', hrun, -, hn', rfl, -, hgoes⟩
        cases hmover.symm.trans hrun
        cases hn.symm.trans hn'
        exact hgoes hstops
      · refine .inr ⟨run, n, f, rfl, hf, hglob, fun p => ⟨?_, ?_⟩, ?_⟩
        · rintro ⟨run', n', hrun, -, hn', rfl, -⟩
          cases hmover.symm.trans hrun
          cases hn.symm.trans hn'
          rfl
        · rintro rfl
          exact ⟨run, n, hmover, henough, hn, rfl, hmkdir, hgoes⟩
        · rw [hmoved, hpicks, hmove]
          exact hend

theorem moved_read_elsewhere (hbetween : ∀ run, c.mover = some run → run.between = []) (hp : p.dir ≠ .ring)
    (hno : ¬ c.Places env r p) : (c.moved env r).read p = r.fs.read p := by
  rw [← toppedUp_read c r (.inl hp)]
  rcases moved_cases hbetween env r with ⟨hsame, -⟩ | ⟨run, n, f, -, -, -, hplaces, hend⟩
  · rw [hsame]
  · refine hend.frame (fun h => hp (congrArg Path.dir h)) fun h => hno ?_
    exact (hplaces p).mpr h

theorem Check.Places.arrives (hbetween : ∀ run, c.mover = some run → run.between = [])
    (h : c.Places env r p) : ∃ f, (c.moved env r).read p = some f := by
  rcases moved_cases hbetween env r with ⟨-, hno⟩ | ⟨run, n, f, -, -, -, hplaces, hend⟩
  · exact absurd h (hno p)
  · obtain rfl := (hplaces p).mp h
    exact hend.arrives (ring_ne_dest c.moverConfig run n n)

/-- Outside the ring, what is there after the mover's run was there before or is
what it put there. -/
theorem moved_read_iff (hbetween : ∀ run, c.mover = some run → run.between = []) (hp : p.dir ≠ .ring) :
    (∃ f, (c.moved env r).read p = some f) ↔ (∃ f, r.fs.read p = some f) ∨ c.Places env r p := by
  by_cases hplaces : c.Places env r p
  · exact iff_of_true (hplaces.arrives hbetween) (.inr hplaces)
  · rw [moved_read_elsewhere hbetween hp hplaces]
    simp [hplaces]

theorem moved_ring_iff (hbetween : ∀ run, c.mover = some run → run.between = []) :
    (∃ f, (c.moved env r).read ⟨.ring, n⟩ = some f) ↔
      (∃ f, (c.toppedUp r).read ⟨.ring, n⟩ = some f) ∧ ¬ c.Takes env r n := by
  have hkept : (c.moved env r).read ⟨.ring, n⟩ = none ∨
      (c.moved env r).read ⟨.ring, n⟩ = (c.toppedUp r).read ⟨.ring, n⟩ := by
    rcases moved_cases hbetween env r with ⟨hsame, -⟩ | ⟨run, m, f, -, hf, -, -, hend⟩
    · rw [hsame]
      exact .inr rfl
    · by_cases hm : n = m
      · subst hm
        rw [hf]
        exact (hend.source (ring_ne_dest c.moverConfig run n n) hf).symm
      · exact .inr (hend.frame (by simpa using hm) (ring_ne_dest c.moverConfig run n m))
  unfold Check.Takes
  rcases hkept with hnone | hsame
  · simp [hnone]
  · rw [hsame]
    cases (c.toppedUp r).read ⟨.ring, n⟩ <;> simp

theorem captureAll_ring_iff {ws : List (Name × File)} {fs : FS} :
    (∃ f, (captureAll fs ws).read ⟨.ring, n⟩ = some f) ↔
      n ∈ ws.map (·.1) ∨ ∃ f, fs.read ⟨.ring, n⟩ = some f := by
  unfold captureAll
  induction ws generalizing fs with
  | nil => simp
  | cons w ws ih =>
    rw [List.foldl_cons, ih, List.map_cons, List.mem_cons]
    by_cases hn : n = w.1
    · simp [hn]
    · rw [FS.read_write_ne (by simpa using hn)]
      simp [hn]

end

/-- **When the check cleans up after itself.** For every content of the ring, the backlog
and the drives, every configuration and every way the mover's run goes, with capture
stopped during it, the exporter idle and every `rm` working. No dummy is left anywhere
exactly if, outside the ring, where the clean-up does not look there was none before and
the mover has put none; and if it does not look in the ring, no dummy was there after the
top-up but one that the mover took, and capture has written none. -/
theorem check_leaves_no_dummy_iff (c : Check) (env : Env) (r : Ring)
    (hbetween : ∀ run, c.mover = some run → run.between = []) (hstuck : ∀ p, c.stuck p = false) :
    (∀ p f, (c.verify env r).read p = some f → isDummy p.name = false) ↔
      (∀ p, p.dir ≠ .ring → isDummy p.name = true → c.swept p.dir = false →
        r.fs.read p = none ∧ ¬ c.Places env r p) ∧
      (c.swept .ring = false → (∀ w ∈ c.captured, isDummy w.1 = false) ∧
        ∀ n f, isDummy n = true → (c.toppedUp r).read ⟨.ring, n⟩ = some f → c.Takes env r n) := by
  have hleft : (∀ p f, (c.verify env r).read p = some f → isDummy p.name = false) ↔
      ∀ p, isDummy p.name = true → c.swept p.dir = false →
        ¬ ∃ f, (captureAll (c.moved env r) c.captured).read p = some f := by
    refine forall_congr' fun p => ?_
    rw [verify_read]
    cases isDummy p.name <;> cases c.swept p.dir <;> simp [hstuck]
  have helse : ∀ p : Path, p.dir ≠ .ring →
      ((∃ f, (captureAll (c.moved env r) c.captured).read p = some f) ↔
        (∃ f, r.fs.read p = some f) ∨ c.Places env r p) := by
    intro p hp
    rw [captureAll_read fun w _ h => hp (congrArg Path.dir h), moved_read_iff hbetween hp]
  have hring : ∀ n, (∃ f, (captureAll (c.moved env r) c.captured).read ⟨.ring, n⟩ = some f) ↔
      n ∈ c.captured.map (·.1) ∨ (∃ f, (c.toppedUp r).read ⟨.ring, n⟩ = some f) ∧ ¬ c.Takes env r n := by
    intro n
    rw [captureAll_ring_iff, moved_ring_iff hbetween]
  rw [hleft]
  constructor
  · intro hnone
    refine ⟨fun p hp hdummy hswept => ?_, fun hswept => ⟨fun w hw => ?_, fun n f hdummy hf => ?_⟩⟩
    · have hno := hnone p hdummy hswept
      rw [helse p hp, not_or] at hno
      exact ⟨Option.eq_none_iff_forall_not_mem.mpr fun f hf => hno.1 ⟨f, hf⟩, hno.2⟩
    · by_contra hdummy
      refine hnone ⟨.ring, w.1⟩ (by simpa using hdummy) hswept ?_
      exact (hring w.1).mpr (.inl (List.mem_map_of_mem hw))
    · by_contra htakes
      exact hnone ⟨.ring, n⟩ hdummy hswept ((hring n).mpr (.inr ⟨⟨f, hf⟩, htakes⟩))
  · rintro ⟨helsewhere, hin⟩ ⟨dir, n⟩ hdummy hswept
    by_cases hdir : dir = .ring
    · subst hdir
      obtain ⟨hcaptured, htaken⟩ := hin hswept
      rw [hring, not_or]
      constructor
      · rintro hmem
        obtain ⟨w, hw, rfl⟩ := List.mem_map.mp hmem
        cases hdummy.symm.trans (hcaptured w hw)
      · rintro ⟨⟨f, hf⟩, hstays⟩
        exact hstays (htaken n f hdummy hf)
    · obtain ⟨hbefore, hplaces⟩ := helsewhere ⟨dir, n⟩ hdir hdummy hswept
      rw [helse _ hdir, hbefore]
      simp [hplaces]

def benchRun : MoverRun where
  now := 100
  mounts := oneMount "SEER_EXT"
  date := "20260101"

/-- A fresh sensor with its configuration's defaults, and a drive at `/mnt/SEER_EXT`. -/
def benchCheck : Check where
  thresh := 2
  clock := fun _ => 1767225600
  touched := 90
  mover := some benchRun
  mounts := oneMount "SEER_EXT"

theorem benchCheck_dest : destDir benchCheck.moverConfig benchRun = .pcap "SEER_EXT" "20260101" := by
  decide +kernel

def benchEmpty : Ring := ⟨.empty, [], List.nodup_nil, fun _ h => nomatch h⟩

theorem check_leaves_no_dummy_iff_default :
    ∃ p f, (benchCheck.verify benchEnv benchEmpty).read p = some f ∧ isDummy p.name = true := by
  have hplaces : benchCheck.Places benchEnv benchEmpty
      ⟨.pcap "SEER_EXT" "20260101", "SEER-DUMMY-1767225600-2.pcap"⟩ := by
    refine ⟨benchRun, "SEER-DUMMY-1767225600-2.pcap", rfl, by decide +kernel, by decide +kernel,
      by rw [benchCheck_dest], .inr rfl, ?_⟩
    rintro ⟨-, h⟩
    cases h
  have hleft := mt (check_leaves_no_dummy_iff benchCheck benchEnv benchEmpty
    (fun run h => by cases h; rfl) (fun _ => rfl)).mp fun hnone =>
      (hnone.1 _ (by simp) (by decide +kernel) (by decide +kernel)).2 hplaces
  simpa using hleft

/-- And with a blank in the ring's path the ring is passed over. -/
example : ({ benchCheck with path := { text := "/data/pcap ring" } } : Check).swept .ring = false := by
  decide

end SeerSensor.InstallCheck
