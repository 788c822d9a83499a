/-
What the sensor's own disk comes to hold while there is no drive.

The mover then has only the backlog to move to, and the exporter nothing to do. So
nothing captured ever leaves the ring and the backlog as long as what is copied is
copied right: the disk holds every byte there was, and a failed copy or unlink leaves
some of them twice.
-/
import Mathlib.Algebra.Order.BigOperators.Group.List
import Mathlib.Algebra.Order.Ring.Nat
import SeerSensor.Conveyor

namespace SeerSensor.Pipeline

open MoveOldest Raise Replica

/-- The directories on the sensor's own disk. -/
def OnSensor (dir : Dir) : Prop := dir = .ring ∨ dir = .backlog

/-- The size of a file, if there is one. -/
def sizeAt (fs : FS) (p : Path) : Nat := ((fs.contents p).getD []).length

/-- The files of the ring and the backlog. -/
def sensorFiles (fs : FS) : List Path :=
  (fs.names .ring).map (⟨.ring, ·⟩) ++ (fs.names .backlog).map (⟨.backlog, ·⟩)

/-- The room taken in the ring and the backlog. -/
def sensorBytes (fs : FS) : Nat := ((sensorFiles fs).map (sizeAt fs)).sum

/-- The room that was captured for. -/
def capturedBytes (captured : List (Name × Bytes)) : Nat := (captured.map (·.2.length)).sum

/-- No drive is mounted. -/
def Dry : Act → Prop
  | .event (.mount (some _)) => False
  | _ => True

/-- Every capture is on the sensor, whole. -/
def Stays (captured : List (Name × Bytes)) (fs : FS) : Prop :=
  ∀ n c, (n, c) ∈ captured → ∃ dir, OnSensor dir ∧ fs.contents ⟨dir, n⟩ = some c

section
variable {cfg : Config} {env : Env} {rotate : ℚ} {w w' : World} {a : Act} {fs fs' : FS} {p : Path}
  {captured : List (Name × Bytes)} {n x : Name} {c : Bytes}

/-! ## What stays -/

theorem Stays.moved (hs : Stays captured fs) (ht : Traced captured fs)
    (hc : Carry ⟨.ring, x⟩ ⟨.backlog, x⟩ fs.contents fs'.contents) : Stays captured fs' := by
  have hsurvives : ∀ n dir c, OnSensor dir → (⟨dir, n⟩ : Path) ≠ ⟨.backlog, x⟩ → fs.contents ⟨dir, n⟩ = some c →
      ∃ dir, OnSensor dir ∧ fs'.contents ⟨dir, n⟩ = some c := by
    intro n dir c hdir hne hcontents
    by_cases hn : n = x
    · subst hn
      rcases hc.survives hcontents hne with h | h
      · exact ⟨dir, hdir, h⟩
      · exact ⟨.backlog, .inr rfl, h⟩
    · exact ⟨dir, hdir, (carry_name hc hn).trans hcontents⟩
  intro n c hn
  obtain ⟨dir, hdir, hcontents⟩ := hs n c hn
  by_cases hdest : (⟨dir, n⟩ : Path) = ⟨.backlog, x⟩
  · -- what is put over the backlog's file is the ring's, which is complete
    obtain ⟨rfl, rfl⟩ : dir = .backlog ∧ n = x := by simpa using hdest
    rcases hc.dest with hsame | ⟨b, k, hring, -⟩
    · exact ⟨.backlog, .inr rfl, hsame.trans hcontents⟩
    · obtain rfl := ht.unique hn (ht.ring n b hring)
      exact hsurvives n .ring c (.inl rfl) (by simp) hring
  · exact hsurvives n dir c hdir hdest hcontents

theorem destDir_of_unmounted {r : MoverRun} (hnone : w.mounted = none) (hsees : w.sees cfg r.mounts) :
    destDir cfg r = .backlog := by
  refine (destDir_eq_backlog cfg r).mpr fun c hc hq => ?_
  have hmounted := hsees c hc hq.1
  cases hnone.symm.trans hmounted

/-- No drive, and every capture on the sensor. -/
structure Held (w : World) : Prop where
  unmounted : w.mounted = none
  traced : Traced w.captured w.disk.fs
  stays : Stays w.captured w.disk.fs

theorem World.Start.held (h : w.Start) (hnone : w.mounted = none) : Held w :=
  ⟨hnone, h.traced, fun n c hn => by simp [h.captured] at hn⟩

theorem step_held (hw : Held w) (hdry : Dry a) (h : step cfg env rotate w a = some w') : Held w' := by
  cases a with
  | transfer n inp =>
    obtain ⟨drive, hmounted, -⟩ := transfer_eq h
    cases hw.unmounted.symm.trans hmounted
  | event e =>
    have ht := event_traced hw.traced h
    cases e with
    | capture n f =>
      simp only [step, World.event] at h
      split at h
      · cases h
      next hnew =>
        cases h
        refine ⟨hw.unmounted, ht, fun m c hm => ?_⟩
        rcases List.mem_append.mp hm with hold | hlast
        · obtain ⟨dir, hdir, hcontents⟩ := hw.stays m c hold
          have hne : m ≠ n := fun heq => hnew (List.mem_map.mpr ⟨(m, c), hold, heq⟩)
          exact ⟨dir, hdir, (FS.contents_write_ne (by simp [hne])).trans hcontents⟩
        · obtain ⟨rfl, rfl⟩ : m = n ∧ c = f.bytes := by simpa using hlast
          exact ⟨.ring, .inl rfl, FS.contents_write_self⟩
    | mover r =>
      simp only [step, World.event] at h
      split at h
      next hmay =>
        cases h
        obtain ⟨x, hcarry⟩ := main_carry cfg env r w.disk.fs hmay.1 hmay.2.2.1
        rw [destDir_of_unmounted hw.unmounted hmay.2.2.2] at hcarry
        exact ⟨hw.unmounted, ht, hw.stays.moved hw.traced hcarry⟩
      · cases h
    | mount drive =>
      cases drive with
      | none => cases h; exact ⟨rfl, ht, hw.stays⟩
      | some drive => exact hdry.elim
    | day date => cases h; exact ⟨hw.unmounted, ht, hw.stays⟩

/-! ## How much that is -/

/-- Where on the sensor a capture is looked for first. -/
def placeOf (fs : FS) (x : Name × Bytes) : Path :=
  ⟨if fs.contents ⟨.ring, x.1⟩ = some x.2 then .ring else .backlog, x.1⟩

theorem Stays.placeOf (hs : Stays captured fs) {x : Name × Bytes} (hx : x ∈ captured) :
    fs.contents (placeOf fs x) = some x.2 := by
  unfold Pipeline.placeOf
  split_ifs with hring
  · exact hring
  · obtain ⟨dir, rfl | rfl, hcontents⟩ := hs x.1 x.2 hx
    · exact absurd hcontents hring
    · exact hcontents

theorem mem_sensorFiles : p ∈ sensorFiles fs ↔ OnSensor p.dir ∧ ∃ b, fs.contents p = some b := by
  have hsome : ∀ dir n, (∃ f, fs.read ⟨dir, n⟩ = some f) ↔ ∃ b, fs.contents ⟨dir, n⟩ = some b := by
    intro dir n
    simp [FS.contents]
  obtain ⟨dir, n⟩ := p
  simp only [sensorFiles, List.mem_append, List.mem_map, FS.mem_names, Path.mk.injEq, OnSensor, hsome]
  constructor
  · rintro (⟨m, hm, rfl, rfl⟩ | ⟨m, hm, rfl, rfl⟩)
    · exact ⟨.inl rfl, hm⟩
    · exact ⟨.inr rfl, hm⟩
  · rintro ⟨rfl | rfl, hb⟩
    · exact .inl ⟨n, hb, rfl, rfl⟩
    · exact .inr ⟨n, hb, rfl, rfl⟩

theorem sensorFiles_nodup (fs : FS) : (sensorFiles fs).Nodup := by
  refine List.nodup_append.mpr ⟨?_, ?_, fun p hp q hq => ?_⟩
  · exact (fs.names_nodup .ring).map fun m k h => (Path.mk.inj h).2
  · exact (fs.names_nodup .backlog).map fun m k h => (Path.mk.inj h).2
  · obtain ⟨m, -, rfl⟩ := List.mem_map.mp hp
    obtain ⟨k, -, rfl⟩ := List.mem_map.mp hq
    simp

theorem sizes_placeOf (hs : Stays captured fs) :
    ((captured.map (placeOf fs)).map (sizeAt fs)).sum = capturedBytes captured := by
  rw [List.map_map, capturedBytes]
  refine congrArg List.sum (List.map_congr_left fun x hx => ?_)
  simp [sizeAt, hs.placeOf hx]

theorem places_nodup (ht : Traced captured fs) : (captured.map (placeOf fs)).Nodup := by
  refine List.Nodup.of_map Path.name ?_
  rw [List.map_map]
  exact ht.nodup

theorem places_subset (hs : Stays captured fs) : captured.map (placeOf fs) ⊆ sensorFiles fs := by
  intro p hp
  obtain ⟨x, hx, rfl⟩ := List.mem_map.mp hp
  refine mem_sensorFiles.mpr ⟨?_, x.2, hs.placeOf hx⟩
  unfold placeOf OnSensor
  split_ifs <;> simp

theorem capturedBytes_le (ht : Traced captured fs) (hs : Stays captured fs) :
    capturedBytes captured ≤ sensorBytes fs := by
  obtain ⟨l, hperm, hsub⟩ := List.subperm_of_subset (places_nodup ht) (places_subset hs)
  rw [← sizes_placeOf hs, ← (hperm.map (sizeAt fs)).sum_eq]
  exact (hsub.map (sizeAt fs)).sum_le_sum fun _ _ => Nat.zero_le _

theorem capturedBytes_eq {m : Belt.Items Name Bytes Dir} (hw : Held w) (hm : OnBelt w m) :
    capturedBytes w.captured = sensorBytes w.disk.fs := by
  have hall : sensorFiles w.disk.fs ⊆ w.captured.map (placeOf w.disk.fs) := by
    rintro ⟨dir, n⟩ hp
    obtain ⟨hdir, b, hb⟩ := mem_sensorFiles.mp hp
    have hitem := hm.item hdir hb
    refine List.mem_map.mpr ⟨(n, b), (hm.captured n b).mpr ⟨dir, hitem⟩, ?_⟩
    rcases hdir with rfl | rfl
    · simp [placeOf, hb]
    · simp [placeOf, hm.there n b .backlog hitem .ring]
  have hperm : (w.captured.map (placeOf w.disk.fs)).Perm (sensorFiles w.disk.fs) :=
    (List.perm_ext_iff_of_nodup (places_nodup hw.traced) (sensorFiles_nodup _)).mpr fun p =>
      ⟨fun hp => places_subset hw.stays hp, fun hp => hall hp⟩
  rw [← sizes_placeOf hw.stays, sensorBytes]
  exact (hperm.map _).sum_eq

end

/-- **Without a drive the sensor's disk only fills.** In every run of capture and mover from
an empty ring and backlog in which no drive is mounted, no name is captured twice and
every copy that returns is honest, whatever else fails: every capture is in the ring or
the backlog, whole, and the two hold at least every byte captured; exactly those, when no
copy breaks off, no unlink fails and no capture has the name of a file on a drive. -/
theorem disk_fills_without_drive (cfg : Config) (env : Env) (rotate : ℚ) (w : World) (hstart : w.Start)
    (hnone : w.mounted = none) (acts : List Act) (hdry : ∀ a ∈ acts, Dry a) (w' : World)
    (hrun : Runs.run (step cfg env rotate) w acts = some w') :
    (∀ n c, (n, c) ∈ w'.captured →
        w'.disk.fs.contents ⟨.ring, n⟩ = some c ∨ w'.disk.fs.contents ⟨.backlog, n⟩ = some c) ∧
      capturedBytes w'.captured ≤ sensorBytes w'.disk.fs ∧
      (Runs.Meets (step cfg env rotate) Clean w acts →
        capturedBytes w'.captured = sensorBytes w'.disk.fs) := by
  have hheld : Held w' :=
    (Runs.always_of_meets (fun _ _ _ hw hd h => step_held hw hd h) (hstart.held hnone)
      (Runs.meets_of_forall hdry w)).last hrun
  refine ⟨fun n c hn => ?_, capturedBytes_le hheld.traced hheld.stays, fun hclean => ?_⟩
  · obtain ⟨dir, rfl | rfl, hcontents⟩ := hheld.stays n c hn
    · exact .inl hcontents
    · exact .inr hcontents
  · obtain ⟨_, m, -, hm⟩ := step_onBelt.run hstart.onBelt hclean hrun
    exact capturedBytes_eq hheld hm

/-- Of two captures, three bytes, one breaks off on its way to the backlog. -/
theorem disk_fills_without_drive_torn :
    ∃ w, Runs.run (step { thresh := 2 } benchEnv 20) benchMorning
        (benchCaptures ++ [benchMove 30 noMounts (.torn 1 30 "ENOSPC")]) = some w ∧
      capturedBytes w.captured = 3 ∧ sensorBytes w.disk.fs = 4 ∧
      (w.disk.fs.contents ⟨.ring, "a.pcap"⟩ = some [0x61, 0x62] ∨
        w.disk.fs.contents ⟨.backlog, "a.pcap"⟩ = some [0x61, 0x62]) := by
  have hend : (Runs.run (step { thresh := 2 } benchEnv 20) benchMorning
      (benchCaptures ++ [benchMove 30 noMounts (.torn 1 30 "ENOSPC")])).map
      (fun w => (w.captured, sensorBytes w.disk.fs)) =
      some ([("a.pcap", [0x61, 0x62]), ("b.pcap", [0x62])], 4) := by
    decide +kernel
  obtain ⟨w, hrun, hw⟩ := Option.map_eq_some_iff.mp hend
  obtain ⟨hcap, hbytes⟩ := Prod.mk.inj hw
  obtain ⟨hstay, -, -⟩ := disk_fills_without_drive { thresh := 2 } benchEnv 20 benchMorning ⟨rfl, rfl, rfl⟩ rfl
    _ (by simp [benchCaptures, benchMove, Dry]) w hrun
  exact ⟨w, hrun, by rw [hcap]; rfl, hbytes, hstay "a.pcap" [0x61, 0x62] (by simp [hcap])⟩

end SeerSensor.Pipeline
