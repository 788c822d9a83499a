/-
The pipeline from the ring over the backlog to the drives, as one system:
capture, runs of the mover, drives that come and go, the date, and the
exporter's work on the backlog.

What ties the three places together is where a file's bytes can come from
(`Traced`). The ring holds complete captures. The backlog holds prefixes of
them, since a copy that fails on its way there leaves what it has written under
the final name. Each move carries the bytes of one place to another, or part of
them, so everything about a step comes from `Replica.Carry`.
-/
import SeerSensor.ExportBatchFacts
import SeerSensor.Lib.Runs
import SeerSensor.MoveOldestFacts

namespace SeerSensor.Pipeline

open MoveOldest Raise Replica

/-- The disk, the drive that is mounted, the date, and what was captured. -/
structure World where
  disk : Disk
  mounted : Option Drive
  date : Date
  captured : List (Name × Bytes) := []

/-- What happens around the exporter. -/
inductive Event where
  | capture (n : Name) (f : File)
  | mover (r : MoverRun)
  /-- A drive is mounted, unmounted or swapped. -/
  | mount (drive : Option Drive)
  | day (date : Date)

/-- The candidates see the drive that is mounted and no other. -/
def World.sees (w : World) (cfg : Config) (m : Mounts) : Prop :=
  ∀ c ∈ cfg.mountCandidates, m.ismount c = true → w.mounted = some (m.volume c)

instance (w : World) (cfg : Config) (m : Mounts) : Decidable (w.sees cfg m) :=
  inferInstanceAs (Decidable (∀ c ∈ _, _))

/-- A run of the mover may start: capture writes nothing in between, the date is today's, the copy
writes what it is given, and the mounts are what is mounted. -/
def World.mayMove (w : World) (cfg : Config) (r : MoverRun) : Prop :=
  r.between = [] ∧ r.date = w.date ∧ r.move.copy2.Honest ∧ w.sees cfg r.mounts

instance (w : World) (cfg : Config) (r : MoverRun) : Decidable (w.mayMove cfg r) :=
    inferInstanceAs (Decidable (_ ∧ _))

/-- What an event does; `none` is that it cannot happen here. -/
def World.event (cfg : Config) (env : Env) (w : World) : Event → Option World
  | .capture n f =>
    if n ∈ w.captured.map (·.1) then
      none
    else
      some { w with
        disk := { w.disk with fs := w.disk.fs.write ⟨.ring, n⟩ f }
        captured := w.captured ++ [(n, f.bytes)] }
  | .mover r =>
    if w.mayMove cfg r then
      some { w with disk := { w.disk with fs := after (main cfg env r) w.disk.fs } }
    else
      none
  | .mount drive => some { w with mounted := drive }
  | .day date => some { w with date := date }

/-- Nothing captured yet, and nothing waiting. -/
structure World.Start (w : World) : Prop where
  captured : w.captured = []
  ring : w.disk.fs.names .ring = []
  backlog : w.disk.fs.names .backlog = []

/-- Where the bytes in the ring and in the backlog come from. -/
structure Traced (captured : List (Name × Bytes)) (fs : FS) : Prop where
  nodup : (captured.map (·.1)).Nodup
  ring : ∀ n b, fs.contents ⟨.ring, n⟩ = some b → (n, b) ∈ captured
  backlog : ∀ n b, fs.contents ⟨.backlog, n⟩ = some b → ∃ c, (n, c) ∈ captured ∧ b <+: c

/-- Every capture is complete somewhere under its name. -/
def Kept (captured : List (Name × Bytes)) (fs : FS) : Prop :=
  ∀ n c, (n, c) ∈ captured → ∃ dir, fs.contents ⟨dir, n⟩ = some c

section
variable {captured : List (Name × Bytes)} {fs fs' : FS} {n x : Name} {b c : Bytes} {src dst dir : Dir}

theorem Traced.unique (ht : Traced captured fs) (hb : (n, b) ∈ captured) (hc : (n, c) ∈ captured) :
    b = c := by
  have h := List.inj_on_of_nodup_map ht.nodup hb hc rfl
  exact (Prod.mk.inj h).2

theorem World.Start.traced {w : World} (h : w.Start) : Traced w.captured w.disk.fs := by
  have hnone : ∀ {d : Dir}, w.disk.fs.names d = [] → ∀ n b, w.disk.fs.contents ⟨d, n⟩ ≠ some b := by
    intro d hd n b hb
    obtain ⟨f, hf, -⟩ := FS.contents_eq_some.mp hb
    have hmem := FS.mem_names.mpr ⟨f, hf⟩
    rw [hd] at hmem
    cases hmem
  refine ⟨by simp [h.captured], fun n b hb => absurd hb (hnone h.ring n b), fun n b hb => absurd hb
    (hnone h.backlog n b)⟩

/-! ## Carrying a file from one place to another -/

theorem carry_name (hc : Carry ⟨src, x⟩ ⟨dst, x⟩ fs.contents fs'.contents) (hn : n ≠ x) :
    fs'.contents ⟨dir, n⟩ = fs.contents ⟨dir, n⟩ :=
  hc.frame (by simp [hn]) (by simp [hn])

theorem carry_dir (hc : Carry ⟨src, x⟩ ⟨dst, x⟩ fs.contents fs'.contents) (hs : dir ≠ src)
    (hd : dir ≠ dst) :
    fs'.contents ⟨dir, n⟩ = fs.contents ⟨dir, n⟩ :=
  hc.frame (by simp [hs]) (by simp [hd])

theorem carry_source (hc : Carry ⟨src, x⟩ ⟨dst, x⟩ fs.contents fs'.contents) (hne : src ≠ dst)
    (hb : fs'.contents ⟨src, n⟩ = some b) : fs.contents ⟨src, n⟩ = some b := by
  by_cases hn : n = x
  · subst hn
    rcases hc.source (by simp [hne]) with h | ⟨h, -⟩
    · rw [← h]; exact hb
    · rw [h] at hb; cases hb
  · rw [← carry_name hc hn]; exact hb

theorem Traced.moved (ht : Traced captured fs) (hc : Carry ⟨.ring, x⟩ ⟨dst, x⟩ fs.contents fs'.contents)
    (hdst : dst ≠ .ring) : Traced captured fs' := by
  refine ⟨ht.nodup, fun n b hb => ht.ring n b (carry_source hc hdst.symm hb), fun n b hb => ?_⟩
  by_cases hd : dst = .backlog
  · subst hd
    by_cases hn : n = x
    · subst hn
      rcases hc.dest with h | ⟨w, k, hw, h⟩
      · exact ht.backlog n b (by rw [← h]; exact hb)
      · rw [h, Option.some.injEq] at hb
        exact ⟨w, ht.ring n w hw, hb ▸ List.take_prefix k w⟩
    · exact ht.backlog n b (by rw [← carry_name hc hn]; exact hb)
  · exact ht.backlog n b (by rw [← carry_dir hc (by simp) (Ne.symm hd)]; exact hb)

theorem Traced.exported (ht : Traced captured fs)
    (hc : Carry ⟨.backlog, x⟩ ⟨dst, x⟩ fs.contents fs'.contents)
    (hring : dst ≠ .ring) (hback : dst ≠ .backlog) : Traced captured fs' := by
  refine ⟨ht.nodup, fun n b hb => ht.ring n b ?_, fun n b hb => ht.backlog n b
    (carry_source hc hback.symm hb)⟩
  rw [← carry_dir hc (by simp) hring.symm]
  exact hb

/-- The mover loses nothing: what it carries is complete. -/
theorem Kept.moved (hk : Kept captured fs) (ht : Traced captured fs)
    (hc : Carry ⟨.ring, x⟩ ⟨dst, x⟩ fs.contents fs'.contents) (hdst : dst ≠ .ring) :
    Kept captured fs' := by
  intro n c hn
  by_cases hnx : n = x
  · subst hnx
    obtain ⟨dir, hdir⟩ := hk n c hn
    by_cases hd : dir = dst
    · -- only the ring's own file, complete, is ever put over it
      subst hd
      rcases hc.dest with h | ⟨w, k, hw, -⟩
      · exact ⟨dir, by rw [h]; exact hdir⟩
      · obtain rfl := ht.unique hn (ht.ring n w hw)
        rcases hc.survives hw (by simp [hdst.symm]) with h | h
        · exact ⟨_, h⟩
        · exact ⟨_, h⟩
    · rcases hc.survives hdir (by simp [hd]) with h | h
      · exact ⟨_, h⟩
      · exact ⟨_, h⟩
  · obtain ⟨dir, hdir⟩ := hk n c hn
    exact ⟨dir, by rw [carry_name hc hnx]; exact hdir⟩

/-! ## Everything but the exporter -/

variable {cfg : Config} {env : Env} {w w' : World} {e : Event}

theorem event_traced (ht : Traced w.captured w.disk.fs) (h : w.event cfg env e = some w') :
    Traced w'.captured w'.disk.fs := by
  cases e with
  | capture n f =>
    simp only [World.event] at h
    split at h
    · cases h
    next hnew =>
      cases h
      refine ⟨?_, fun m b hb => ?_, fun m b hb => ?_⟩
      · simp only [List.map_append, List.map_cons, List.map_nil]
        exact List.nodup_append.mpr ⟨ht.nodup, by simp,
          fun a ha b hb => by simp at hb; exact fun he => hnew (hb ▸ he ▸ ha)⟩
      · simp only at hb
        by_cases hm : m = n
        · subst hm
          rw [FS.contents_write_self, Option.some.injEq] at hb
          simp [hb]
        · rw [FS.contents_write_ne (by simp [hm])] at hb
          exact List.mem_append_left _ (ht.ring m b hb)
      · simp only at hb
        rw [FS.contents_write_ne (by simp)] at hb
        obtain ⟨c, hc, hpre⟩ := ht.backlog m b hb
        exact ⟨c, List.mem_append_left _ hc, hpre⟩
  | mover r =>
    simp only [World.event] at h
    split at h
    next hmay =>
      cases h
      obtain ⟨x, hc⟩ := main_carry cfg env r w.disk.fs hmay.1 hmay.2.2.1
      exact ht.moved hc (destDir_ne_ring cfg r)
    · cases h
  | mount drive => cases h; exact ht
  | day date => cases h; exact ht

theorem event_kept (ht : Traced w.captured w.disk.fs) (hk : Kept w.captured w.disk.fs)
    (h : w.event cfg env e = some w') : Kept w'.captured w'.disk.fs := by
  cases e with
  | capture n f =>
    simp only [World.event] at h
    split at h
    · cases h
    next hnew =>
      cases h
      intro m c hm
      rcases List.mem_append.mp hm with hold | hlast
      · obtain ⟨dir, hdir⟩ := hk m c hold
        have hne : m ≠ n := fun he => hnew (List.mem_map.mpr ⟨(m, c), hold, he⟩)
        exact ⟨dir, by rw [FS.contents_write_ne (by simp [hne])]; exact hdir⟩
      · simp only [List.mem_singleton, Prod.mk.injEq] at hlast
        obtain ⟨rfl, rfl⟩ := hlast
        exact ⟨.ring, FS.contents_write_self⟩
  | mover r =>
    simp only [World.event] at h
    split at h
    next hmay =>
      cases h
      obtain ⟨x, hc⟩ := main_carry cfg env r w.disk.fs hmay.1 hmay.2.2.1
      exact hk.moved ht hc (destDir_ne_ring cfg r)
    · cases h
  | mount drive => cases h; exact hk
  | day date => cases h; exact hk

end

end SeerSensor.Pipeline
