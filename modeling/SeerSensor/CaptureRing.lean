/-
Which directory is the ring.

`seer-capture.sh` has tcpdump write to `/var/seer/pcap_ring`, whatever `seer.yml` says.
The mover drains `ring_dir` and the exporter `backlog_dir`, and the wizard takes any
path for the two. What becomes of the captures is decided by where these lead: through
the ring and the backlog, into the backlog at once, or nowhere.
-/
import SeerSensor.Retry
import SeerSensor.Settings

namespace SeerSensor.CaptureRing

open Pipeline Settings

/-- Where `seer-capture.sh` has tcpdump write. -/
def captureRing : String := "/var/seer/pcap_ring"

/-- Capture's directory, if it is one of the two that are drained. That the two are one
directory is not for this model. -/
def captureDir (inode : String → Nat) (ring backlog : String) : Option Dir :=
  if inode ring = inode captureRing then some .ring
  else if inode backlog = inode captureRing then some .backlog
  else none

/-- The pipeline, and the files of capture's directory when nothing drains it. -/
structure Sensor where
  world : World
  apart : List (Name × File) := []

/-- A complete capture, under a new name. -/
def Sensor.capture (dir : Option Dir) (s : Sensor) (n : Name) (f : File) : Option Sensor :=
  match dir with
  | some d =>
    if n ∈ s.world.captured.map (·.1) then
      none
    else
      some { s with world := { s.world with
        disk := { s.world.disk with fs := s.world.disk.fs.write ⟨d, n⟩ f }
        captured := s.world.captured ++ [(n, f.bytes)] } }
  | none => if n ∈ s.apart.map (·.1) then none else some { s with apart := s.apart ++ [(n, f)] }

/-- The file that an event captures. -/
def captureOf : Act → Option (Name × File)
  | .event (.capture n f) => some (n, f)
  | _ => none

/-- One step of the sensor, `dir` being capture's directory. -/
def Sensor.step (dir : Option Dir) (cfg : MoveOldest.Config) (env : Env) (rotate : ℚ) (s : Sensor) (a : Act) :
    Option Sensor :=
  match captureOf a with
  | some (n, f) => s.capture dir n f
  | none => (Pipeline.step cfg env rotate s.world a).map fun world => { s with world }

/-- What was captured, in order. -/
def captures (acts : List Act) : List (Name × File) := acts.filterMap captureOf

section
variable {dir : Option Dir} {cfg : MoveOldest.Config} {env : Env} {rotate : ℚ} {s s' : Sensor} {w w' : World}
  {a : Act} {acts : List Act}

theorem captureOf_eq_some {n : Name} {f : File} (h : captureOf a = some (n, f)) : a = .event (.capture n f) := by
  unfold captureOf at h
  split at h
  · cases h
    rfl
  · cases h

theorem step_cases (h : Sensor.step dir cfg env rotate s a = some s') :
    (∃ n f, captureOf a = some (n, f) ∧ s.capture dir n f = some s') ∨
      captureOf a = none ∧ ∃ w, Pipeline.step cfg env rotate s.world a = some w ∧ s' = { s with world := w } := by
  unfold Sensor.step at h
  split at h
  next n f hcapture => exact .inl ⟨n, f, hcapture, h⟩
  next hcapture =>
    obtain ⟨w, hw, rfl⟩ := Option.map_eq_some_iff.mp h
    exact .inr ⟨hcapture, w, hw, rfl⟩

/-! ## In the ring -/

theorem step_ring (cfg : MoveOldest.Config) (env : Env) (rotate : ℚ) (s : Sensor) (a : Act) :
    Sensor.step (some .ring) cfg env rotate s a =
      (Pipeline.step cfg env rotate s.world a).map fun world => { s with world } := by
  unfold Sensor.step
  split
  next n f hcapture =>
    cases captureOf_eq_some hcapture
    show (if _ then _ else _) = (if _ then _ else _ : Option World).map _
    split_ifs <;> rfl
  next => rfl

theorem run_ring (acts : List Act) (s : Sensor) : Runs.run (Sensor.step (some .ring) cfg env rotate) s acts =
    (Runs.run (Pipeline.step cfg env rotate) s.world acts).map fun world => { s with world } := by
  induction acts generalizing s with
  | nil => rfl
  | cons a acts ih =>
    rw [Runs.run, step_ring, Runs.run]
    cases Pipeline.step cfg env rotate s.world a with
    | none => rfl
    | some w => exact ih { s with world := w }

/-! ## An empty ring -/

theorem mover_idle {r : MoveOldest.MoverRun} (hthresh : 2 ≤ cfg.thresh) (hring : w.disk.fs.names .ring = [])
    (h : w.event cfg env (.mover r) = some w') : w' = w := by
  obtain ⟨-, hw⟩ := Option.ite_none_right_eq_some.mp h
  cases hw
  have hshort : (MoveOldest.ringPcaps w.disk.fs).length < cfg.thresh := by
    rw [MoveOldest.length_ringPcaps, hring]
    exact Nat.lt_of_lt_of_le (by decide) hthresh
  rcases MoveOldest.main_cases cfg env r w.disk.fs with ⟨-, hsame⟩ | ⟨henough, -⟩
  · rw [hsame]
  · exact absurd hshort (Nat.not_lt.mpr henough)

/-- What the pipeline then does besides: the files stay, or the exporter has its turn. -/
theorem step_empty_ring (hthresh : 2 ≤ cfg.thresh) (hring : w.disk.fs.names .ring = [])
    (hcapture : captureOf a = none) (h : Pipeline.step cfg env rotate w a = some w') :
    w'.captured = w.captured ∧ (w'.disk = w.disk ∨
      ∃ n inp drive, n ∈ backlogPcaps w.disk.fs ∧ (inp.turn n).transfer.Honest ∧
        w'.disk.fs = turnFs env rotate inp (.pcap drive inp.date) w.disk.fs n) := by
  rcases a with (e | ⟨n, inp⟩)
  · cases e with
    | capture n f => cases hcapture
    | mover r =>
      rw [mover_idle hthresh hring h]
      exact ⟨rfl, .inl rfl⟩
    | mount drive =>
      cases h
      exact ⟨rfl, .inl rfl⟩
    | day date =>
      cases h
      exact ⟨rfl, .inl rfl⟩
  · change w.transfer env rotate n inp = some w' at h
    have hlisted : n ∈ backlogPcaps w.disk.fs := by
      unfold World.transfer at h
      split at h
      · cases h
      · exact (Option.ite_none_right_eq_some.mp h).1.1
    obtain ⟨drive, -, hhonest, rfl⟩ := transfer_eq h
    exact ⟨rfl, .inr ⟨n, inp, drive, hlisted, hhonest, rfl⟩⟩

/-! ## In the backlog -/

/-- The ring stays empty, and the exporter has every capture or has delivered it. -/
structure Drained (s : Sensor) : Prop where
  ring : s.world.disk.fs.names .ring = []
  held : ∀ n b, (n, b) ∈ s.world.captured → Retry.Held s.world.disk.fs n b
  apart : s.apart = []

theorem names_eq_nil_of_read {fs fs' : FS} {d : Dir} (hread : ∀ n, fs'.read ⟨d, n⟩ = fs.read ⟨d, n⟩)
    (h : fs.names d = []) : fs'.names d = [] := by
  refine List.eq_nil_iff_forall_not_mem.mpr fun n hn => ?_
  obtain ⟨f, hf⟩ := FS.mem_names.mp hn
  have hmem : n ∈ fs.names d := FS.mem_names.mpr ⟨f, (hread n).symm.trans hf⟩
  rw [h] at hmem
  cases hmem

theorem Drained.capture (h : Drained s) {n : Name} {f : File} (hs' : s.capture (some .backlog) n f = some s') :
    Drained s' := by
  obtain ⟨hnew, hs'⟩ := Option.ite_none_left_eq_some.mp hs'
  cases hs'
  exact ⟨names_eq_nil_of_read (fun m => FS.read_write_ne (by simp)) h.ring, Retry.held_stage h.held hnew f,
    h.apart⟩

theorem Drained.turn (h : Drained s) {n : Name} {inp : BatchInput} {drive : Drive}
    (hlisted : n ∈ backlogPcaps s.world.disk.fs) (hhonest : (inp.turn n).transfer.Honest)
    (hfs : w.disk.fs = turnFs env rotate inp (.pcap drive inp.date) s.world.disk.fs n)
    (hcaptured : w.captured = s.world.captured) : Drained { s with world := w } := by
  obtain ⟨⟨f, hf⟩, -⟩ := mem_backlogPcaps.mp hlisted
  have hin : s.world.disk.fs.contents ⟨.backlog, n⟩ ≠ none := by simp [FS.contents_of_read hf]
  refine ⟨?_, ?_, h.apart⟩
  · show w.disk.fs.names .ring = []
    rw [hfs]
    exact names_eq_nil_of_read (fun m => turnFs_frame (by simp [turnPaths])) h.ring
  · intro m b hm
    show Retry.Held w.disk.fs m b
    rw [hfs]
    exact Retry.held_turn h.held (fun _ _ => ⟨fun b hb => absurd hb (hhonest.copy2 b), fun _ => hhonest.move⟩) hin
      m b (hcaptured ▸ hm)

theorem Drained.step (hthresh : 2 ≤ cfg.thresh) (h : Drained s)
    (hstep : Sensor.step (some .backlog) cfg env rotate s a = some s') : Drained s' ∧
      s'.world.captured = s.world.captured ++ (captures [a]).map fun p => (p.1, p.2.bytes) := by
  rcases step_cases hstep with ⟨n, f, hcapture, hs'⟩ | ⟨hcapture, w, hw, rfl⟩
  · refine ⟨h.capture hs', ?_⟩
    obtain ⟨-, hs'⟩ := Option.ite_none_left_eq_some.mp hs'
    cases hs'
    simp [captures, hcapture]
  · obtain ⟨hcaptured, hfiles⟩ := step_empty_ring hthresh h.ring hcapture hw
    refine ⟨?_, by simp [captures, hcapture, hcaptured]⟩
    rcases hfiles with hdisk | ⟨n, inp, drive, hlisted, hhonest, hfs⟩
    · exact ⟨hdisk ▸ h.ring, hdisk ▸ hcaptured ▸ h.held, h.apart⟩
    · exact h.turn hlisted hhonest hfs hcaptured

theorem captures_cons (a : Act) (acts : List Act) : captures (a :: acts) = captures [a] ++ captures acts :=
  List.filterMap_append (l := [a])

/-- The exporter drains capture's directory. -/
theorem run_backlog (hthresh : 2 ≤ cfg.thresh) (h : Drained s)
    (hrun : Runs.run (Sensor.step (some .backlog) cfg env rotate) s acts = some s') : Drained s' ∧
      s'.world.captured = s.world.captured ++ (captures acts).map fun p => (p.1, p.2.bytes) := by
  induction acts generalizing s with
  | nil =>
    cases hrun
    exact ⟨h, (List.append_nil _).symm⟩
  | cons a acts ih =>
    obtain ⟨t, ht, hrun⟩ := Runs.run_cons.mp hrun
    obtain ⟨hdrained, hone⟩ := h.step hthresh ht
    obtain ⟨hend, hrest⟩ := ih hdrained hrun
    refine ⟨hend, ?_⟩
    rw [hrest, hone, captures_cons a acts, List.map_append, List.append_assoc]

/-! ## Elsewhere -/

theorem run_apart (hthresh : 2 ≤ cfg.thresh) (hring : s.world.disk.fs.names .ring = [])
    (hbacklog : s.world.disk.fs.names .backlog = [])
    (hrun : Runs.run (Sensor.step none cfg env rotate) s acts = some s') :
    s'.apart = s.apart ++ captures acts ∧ s'.world.disk = s.world.disk := by
  induction acts generalizing s with
  | nil =>
    cases hrun
    exact ⟨(List.append_nil _).symm, rfl⟩
  | cons a acts ih =>
    obtain ⟨t, ht, hrun⟩ := Runs.run_cons.mp hrun
    have hone : t.apart = s.apart ++ captures [a] ∧ t.world.disk = s.world.disk := by
      rcases step_cases ht with ⟨n, f, hcapture, ht⟩ | ⟨hcapture, w, hw, rfl⟩
      · obtain ⟨-, ht⟩ := Option.ite_none_left_eq_some.mp ht
        cases ht
        exact ⟨by simp [captures, hcapture], rfl⟩
      · refine ⟨by simp [captures, hcapture], ?_⟩
        rcases (step_empty_ring hthresh hring hcapture hw).2 with hdisk | ⟨n, _, _, hlisted, -⟩
        · exact hdisk
        · simp [backlogPcaps, hbacklog] at hlisted
    obtain ⟨hapart, hdisk⟩ := ih (hone.2 ▸ hring) (hone.2 ▸ hbacklog) hrun
    refine ⟨?_, hdisk.trans hone.2⟩
    rw [hapart, hone.1, captures_cons a acts, List.append_assoc]

end

/-- **Where the two directories lead decides what becomes of the captures.** The wizard takes
any path for `ring_dir` and `backlog_dir`, and the mover and the exporter start with
what it writes. In every run from an empty ring and backlog, with captures under new
names and copies that write what they are given: if `ring_dir` alone leads to capture's
directory, the sensor is the pipeline. If `backlog_dir` alone does, no file ever comes
to the ring, and each capture is whole in the directory that the exporter drains, or
gone from there and whole on a drive. If neither does, each capture stays in capture's
directory, and neither the mover nor the exporter changes a file. -/
theorem ring_dir_decides {F : Type} (m : Wizard.Machine F) (inPlace : Option (Wizard.Config F))
    (nonInteractive : Bool) (answers : List String) (cfg : Wizard.Config F)
    (h : Wizard.written m inPlace nonInteractive answers = some cfg) (ofFloat : F → PyValue.Value)
    (yaml : PyYaml) (hyaml : yaml.Keeps (document ofFloat cfg)) (inode : String → Nat) (env : Env) (rotate : ℚ)
    (w : World) (hstart : w.Start) (acts : List Act) :
    ∃ s e c, moverBoot (yaml.reread (document ofFloat cfg)) = .ok s ∧
      exporterBoot (yaml.reread (document ofFloat cfg)) = .ok e ∧ e.backlogDir = .str s.backlog ∧
      s.config = some c ∧
      ∀ s', Runs.run (Sensor.step (captureDir inode s.ring s.backlog) c env rotate) { world := w } acts = some s' →
        (inode cfg.ringDir = inode captureRing → inode cfg.backlogDir ≠ inode captureRing →
          s'.apart = [] ∧ Runs.run (Pipeline.step c env rotate) w acts = some s'.world) ∧
        (inode cfg.ringDir ≠ inode captureRing → inode cfg.backlogDir = inode captureRing →
          s'.apart = [] ∧ s'.world.disk.fs.names .ring = [] ∧
          ∀ n f, (n, f) ∈ captures acts → Retry.Held s'.world.disk.fs n f.bytes) ∧
        (inode cfg.ringDir ≠ inode captureRing → inode cfg.backlogDir ≠ inode captureRing →
          s'.apart = captures acts ∧ s'.world.disk = w.disk) := by
  rw [PyYaml.Keeps] at hyaml
  rw [hyaml]
  refine ⟨moverOf cfg, _, configOf cfg, moverBoot_document ofFloat cfg, exporterBoot_document ofFloat cfg, rfl,
    config_moverOf cfg, ?_⟩
  intro s' hrun
  have hthresh : 2 ≤ (configOf cfg).thresh := by
    show 2 ≤ cfg.bufferThreshold.toNat
    have hbounds := (written_facts h).1
    omega
  change Runs.run (Sensor.step (captureDir inode cfg.ringDir cfg.backlogDir) _ _ _) _ _ = _ at hrun
  refine ⟨?_, ?_, ?_⟩
  · intro hring _
    rw [captureDir, if_pos hring, run_ring] at hrun
    obtain ⟨w', hw', rfl⟩ := Option.map_eq_some_iff.mp hrun
    exact ⟨rfl, hw'⟩
  · intro hring hbacklog
    rw [captureDir, if_neg hring, if_pos hbacklog] at hrun
    have hfirst : Drained { world := w } := by
      refine ⟨hstart.ring, fun n b hn => ?_, rfl⟩
      rw [hstart.captured] at hn
      cases hn
    obtain ⟨hdrained, hcaptured⟩ := run_backlog hthresh hfirst hrun
    refine ⟨hdrained.apart, hdrained.ring, fun n f hf => hdrained.held n f.bytes ?_⟩
    rw [hcaptured]
    exact List.mem_append_right _ (List.mem_map.mpr ⟨(n, f), hf, rfl⟩)
  · intro hring hbacklog
    rw [captureDir, if_neg hring, if_neg hbacklog] at hrun
    exact run_apart hthresh hstart.ring hstart.backlog hrun

/-- A ring of the operator's own. -/
def benchConfig : Wizard.Config Nat := { Wizard.defaults Wizard.benchFloats with ringDir := "/data/ring" }

def benchWorld : World := { disk := { fs := .empty }, mounted := none, date := "20260101" }

def benchActs : List Act := benchCaptures ++ [benchMove 30 noMounts .none]

/-- The two captures stay where tcpdump put them. -/
theorem ring_dir_decides_elsewhere : ∃ s',
    Runs.run (Sensor.step none (configOf benchConfig) benchEnv 20) { world := benchWorld } benchActs = some s' ∧
      s'.apart = [("a.pcap", ⟨[0x61, 0x62], 0⟩), ("b.pcap", ⟨[0x62], 20⟩)] := by
  have hwritten : Wizard.written (Wizard.bench 4) none false
      (List.replicate 7 "" ++ "/data/ring" :: List.replicate 6 "") = some benchConfig := by
    decide +kernel
  have hends : (Runs.run (Sensor.step none (configOf benchConfig) benchEnv 20) { world := benchWorld }
      benchActs).isSome = true := by
    decide +kernel
  obtain ⟨s', hs'⟩ := Option.isSome_iff_exists.mp hends
  obtain ⟨s, e, c, hs, -, -, hc, hrun⟩ := ring_dir_decides (Wizard.bench 4) none false _ benchConfig hwritten
    benchFloat (benchYaml _) rfl (fun p => if p = captureRing then 0 else 1) benchEnv 20 benchWorld ⟨rfl, rfl, rfl⟩
    benchActs
  cases (moverBoot_document benchFloat benchConfig).symm.trans hs
  cases (config_moverOf benchConfig).symm.trans hc
  exact ⟨s', hs', ((hrun s' hs').2.2 (by decide) (by decide)).1⟩

end SeerSensor.CaptureRing
