/-
What one run of the mover does: it leaves the files as capture left them, or
it moves one file that was picked. Everything about the pick comes from the
ring's listing sorted by modification time.
-/
import SeerSensor.FilesFacts
import SeerSensor.MoveOldest

namespace SeerSensor.MoveOldest

open Raise

section
variable {cfg : Config} {env : Env} {r : MoverRun} {fs : FS} {n : Name} {f : File} {now : Time}

theorem mem_ringPcaps : (n, f) ∈ ringPcaps fs ↔ fs.read ⟨.ring, n⟩ = some f ∧ globPcap n = true := by
  simp only [ringPcaps, List.mem_filterMap, List.mem_filter, FS.mem_names, Option.map_eq_some_iff,
    Prod.mk.injEq]
  refine ⟨fun h => ?_, fun h => ?_⟩
  · obtain ⟨m, ⟨_, hg⟩, g, hr, rfl, rfl⟩ := h
    exact ⟨hr, hg⟩
  · exact ⟨n, ⟨⟨f, h.1⟩, h.2⟩, f, h.1, rfl, rfl⟩

theorem map_fst_stat {l : List Name} (hl : ∀ n ∈ l, ∃ f, fs.read ⟨.ring, n⟩ = some f) :
    (l.filterMap fun n => (fs.read ⟨.ring, n⟩).map fun f => (n, f)).map (·.1) = l := by
  induction l with
  | nil => rfl
  | cons n l ih =>
    obtain ⟨f, hf⟩ := hl n (by simp)
    simp only [List.filterMap_cons, hf, Option.map_some, List.map_cons, ih fun m hm => hl m
      (by simp [hm])]

theorem map_ringPcaps (fs : FS) : (ringPcaps fs).map (·.1) = (fs.names .ring).filter globPcap :=
  map_fst_stat fun _ hn => FS.mem_names.mp (List.mem_filter.mp hn).1

theorem length_ringPcaps (fs : FS) :
    (ringPcaps fs).length = ((fs.names .ring).filter globPcap).length := by
  rw [← map_ringPcaps, List.length_map]

theorem pickOldestClosed_mem (h : pickOldestClosed now fs = some n) :
    ∃ f, fs.read ⟨.ring, n⟩ = some f ∧ globPcap n = true ∧ closed now f = true := by
  simp only [pickOldestClosed, Option.map_eq_some_iff] at h
  obtain ⟨⟨m, f⟩, hfind, rfl⟩ := h
  have hmem := (List.mem_insertionSort _).mp (List.mem_of_find?_eq_some hfind)
  have hclosed := List.find?_some hfind
  obtain ⟨hr, hg⟩ := mem_ringPcaps.mp hmem
  exact ⟨f, hr, hg, hclosed⟩

theorem pickOldestClosed_none (h : pickOldestClosed now fs = none) :
    ∀ p ∈ ringPcaps fs, closed now p.2 = false := by
  simp only [pickOldestClosed, Option.map_eq_none_iff, List.find?_eq_none] at h
  intro p hp
  simpa using h p ((List.mem_insertionSort _).mpr hp)

theorem destDir_ne_ring (cfg : Config) (r : MoverRun) : destDir cfg r ≠ .ring := by
  unfold destDir
  split
  · next h => rw [(detectExportDrive_mounted h).2]; simp
  · simp

theorem ring_ne_dest (cfg : Config) (r : MoverRun) (n x : Name) :
    (⟨.ring, n⟩ : Path) ≠ ⟨destDir cfg r, x⟩ := by
  intro he
  simp only [Path.mk.injEq] at he
  exact destDir_ne_ring cfg r he.1.symm

theorem destDir_eq_backlog (cfg : Config) (r : MoverRun) : destDir cfg r = .backlog ↔
    ∀ c ∈ cfg.mountCandidates, ¬ Qualifies r.mounts cfg.minFreePct c := by
  have hfind := detectExportDrive_eq_find r.mounts cfg.minFreePct r.date cfg.mountCandidates
  unfold destDir
  split
  · next mount dest h =>
    rw [h, Option.map_some] at hfind
    rw [(detectExportDrive_mounted h).2]
    constructor
    · intro hdest
      cases hdest
    · intro hnone
      have hq := List.find?_some hfind.symm
      exact absurd (by simpa using hq) (hnone mount (List.mem_of_find?_eq_some hfind.symm))
  · next h =>
    rw [h, Option.map_none] at hfind
    simpa using List.find?_eq_none.mp hfind.symm

theorem captureAll_read {ws : List (Name × File)} {p : Path} (hp : ∀ w ∈ ws, p ≠ ⟨.ring, w.1⟩) (fs : FS) :
    (captureAll fs ws).read p = fs.read p := by
  unfold captureAll
  induction ws generalizing fs with
  | nil => rfl
  | cons w ws ih =>
    obtain ⟨hw, hws⟩ := List.forall_mem_cons.mp hp
    rw [List.foldl_cons, ih hws, FS.read_write_ne hw]

theorem moveTo_ok (env : Env) (fl : MoveFaults) (target : Name) (dest : Dir) (route destPath : String)
    (fs : FS) :
    ∃ line, moveTo env fl target dest route destPath fs =
      .ok line (after (shutilMove env fl ⟨.ring, target⟩ ⟨dest, target⟩) fs) := by
  unfold after moveTo
  cases shutilMove env fl ⟨.ring, target⟩ ⟨dest, target⟩ fs with
  | ok _ fs' => exact ⟨_, rfl⟩
  | error e fs' => exact ⟨_, rfl⟩

/-- How a run ends from the second listing on: with nothing to move, with the
error of the one call that stands outside the `try`, or after one
`shutil.move` of what was picked, whose own error is only logged. -/
inductive PickEnd (cfg : Config) (env : Env) (r : MoverRun) (fs : FS) :
    EStateM.Result String FS String → Prop
  | nothing {line : String} : pickOldestClosed r.now fs = none → PickEnd cfg env r fs (.ok line fs)
  | unmade {target : Name} {e : String} : pickOldestClosed r.now fs = some target →
      destDir cfg r ≠ .backlog → r.mkdir = some e → PickEnd cfg env r fs (.error e fs)
  | moved {target : Name} {line : String} : pickOldestClosed r.now fs = some target →
      (destDir cfg r = .backlog ∨ r.mkdir = none) →
      PickEnd cfg env r fs
        (.ok line (after (shutilMove env r.move ⟨.ring, target⟩ ⟨destDir cfg r, target⟩) fs))

theorem pickAndMove_ends (cfg : Config) (env : Env) (r : MoverRun) (fs : FS) :
    PickEnd cfg env r fs (pickAndMove cfg env r fs) := by
  have hget : pickAndMove cfg env r fs = (get >>= fun fs => _ : Prog FS String) fs := rfl
  rw [bind_of_ok get_apply] at hget
  cases hpick : pickOldestClosed r.now fs with
  | none =>
    rw [hpick] at hget
    rw [hget]
    exact .nothing hpick
  | some target =>
    rw [hpick] at hget
    cases hdrive : detectExportDrive r.mounts cfg.minFreePct r.date cfg.mountCandidates with
    | none =>
      have hdest : destDir cfg r = .backlog := by simp only [destDir, hdrive]
      rw [hdrive] at hget
      obtain ⟨line, hline⟩ := moveTo_ok env r.move target .backlog "backlog"
        (cfg.backlogDir ++ "/" ++ target) fs
      rw [hget.trans hline, ← hdest]
      exact .moved hpick (.inl hdest)
    | some md =>
      obtain ⟨mount, dest⟩ := md
      have hdest : destDir cfg r = dest := by simp only [destDir, hdrive]
      rw [hdrive] at hget
      cases hmk : r.mkdir with
      | some e =>
        rw [hmk] at hget
        rw [hget]
        have hne : destDir cfg r ≠ .backlog := by rw [hdest, (detectExportDrive_mounted hdrive).2]; simp
        exact .unmade hpick hne hmk
      | none =>
        rw [hmk] at hget
        obtain ⟨line, hline⟩ := moveTo_ok env r.move target dest ("export(" ++ mount ++ ")")
          (mount ++ "/pcap/" ++ r.date ++ "/" ++ target) fs
        rw [hget.trans hline, ← hdest]
        exact .moved hpick (.inr hmk)

/-- From the second listing on: nothing to move, no directory to move it to, or
one `shutil.move` of what was picked. -/
theorem pickAndMove_cases (cfg : Config) (env : Env) (r : MoverRun) (fs : FS) :
    (pickOldestClosed r.now fs = none ∧ after (pickAndMove cfg env r) fs = fs) ∨
    ∃ target, pickOldestClosed r.now fs = some target ∧
      ((destDir cfg r ≠ .backlog ∧ r.mkdir ≠ none ∧ after (pickAndMove cfg env r) fs = fs) ∨
      ((destDir cfg r = .backlog ∨ r.mkdir = none) ∧ after (pickAndMove cfg env r) fs =
        after (shutilMove env r.move ⟨.ring, target⟩ ⟨destDir cfg r, target⟩) fs)) := by
  have hend := pickAndMove_ends cfg env r fs
  generalize hres : pickAndMove cfg env r fs = res at hend
  cases hend with
  | nothing hpick => exact .inl ⟨hpick, after_ok hres⟩
  | unmade hpick hdest hmk => exact .inr ⟨_, hpick, .inl ⟨hdest, by simp [hmk], after_error hres⟩⟩
  | moved hpick hgo => exact .inr ⟨_, hpick, .inr ⟨hgo, after_ok hres⟩⟩

/-- From the second listing on, the ring loses what was picked or nothing. -/
theorem pickAndMove_ring (cfg : Config) (env : Env) (r : MoverRun) (fs : FS) :
    (∀ n, (after (pickAndMove cfg env r) fs).read ⟨.ring, n⟩ = fs.read ⟨.ring, n⟩) ∨
    ∃ x, pickOldestClosed r.now fs = some x ∧
      (after (pickAndMove cfg env r) fs).read ⟨.ring, x⟩ = none ∧
      ∀ n, n ≠ x → (after (pickAndMove cfg env r) fs).read ⟨.ring, n⟩ = fs.read ⟨.ring, n⟩ := by
  rcases pickAndMove_cases cfg env r fs with ⟨_, h⟩ | ⟨x, hx, ⟨_, _, h⟩ | ⟨_, h⟩⟩
  · left; intro n; rw [h]
  · left; intro n; rw [h]
  rw [h]
  obtain ⟨f, hf, -, -⟩ := pickOldestClosed_mem hx
  rcases shutilMove_ends env r.move (ring_ne_dest cfg r x x) hf with ⟨_, h⟩ | ⟨_, hend⟩
  · left; intro n; rw [h]
  have hother : ∀ n, n ≠ x →
    (after (shutilMove env r.move ⟨.ring, x⟩ ⟨destDir cfg r, x⟩) fs).read ⟨.ring, n⟩ =
      fs.read ⟨.ring, n⟩ := fun n hn => hend.frame (by simpa using hn) (ring_ne_dest cfg r n x)
  rcases hend.source (ring_ne_dest cfg r x x) hf with hkept | hgone
  · left
    intro n
    by_cases hn : n = x
    · rw [hn, hkept, hf]
    · exact hother n hn
  · exact .inr ⟨x, hx, hgone, hother⟩

theorem pickAndMove_takes (cfg : Config) (env : Env) {x : Name}
    (hx : pickOldestClosed r.now fs = some x) (hmk : r.mkdir = none)
    (hmv : r.move = {}) : (after (pickAndMove cfg env r) fs).read ⟨.ring, x⟩ = none := by
  obtain ⟨f, hf, -, -⟩ := pickOldestClosed_mem hx
  have hmoved : after (pickAndMove cfg env r) fs =
      after (shutilMove env r.move ⟨.ring, x⟩ ⟨destDir cfg r, x⟩) fs := by
    rcases pickAndMove_cases cfg env r fs with ⟨hnone, _⟩ | ⟨y, hy, ⟨_, hmk', _⟩ | ⟨_, h⟩⟩
    · rw [hx] at hnone; cases hnone
    · exact absurd hmk hmk'
    · rw [hx, Option.some.injEq] at hy
      rw [hy]; exact h
  rw [hmoved, hmv]
  rcases shutilMove_ends env {} (ring_ne_dest cfg r x x) hf with ⟨hstop, _⟩ | ⟨_, hend⟩
  · simp [MoveFaults.stopsEarly, CopyFault.isRefused] at hstop
  · exact hend.gone (ring_ne_dest cfg r x x)

theorem main_picks (env : Env) (r : MoverRun) (h : cfg.thresh ≤ (ringPcaps fs).length) :
    main cfg env r fs = pickAndMove cfg env r (captureAll fs r.between) := by
  have hcount : ¬ (ringPcaps fs).length < cfg.thresh := Nat.not_lt.mpr h
  simp only [main]
  rw [bind_of_ok get_apply]
  simp only [hcount, if_false]
  rw [bind_of_ok (modify_apply _)]

/-- **What a run does to the files.** Below the threshold it does nothing; else
capture's writes are there and the rest is `pickAndMove`. -/
theorem main_cases (cfg : Config) (env : Env) (r : MoverRun) (fs : FS) :
    ((ringPcaps fs).length < cfg.thresh ∧ after (main cfg env r) fs = fs) ∨
    (cfg.thresh ≤ (ringPcaps fs).length ∧
      after (main cfg env r) fs = after (pickAndMove cfg env r) (captureAll fs r.between)) := by
  by_cases hcount : (ringPcaps fs).length < cfg.thresh
  · refine .inl ⟨hcount, ?_⟩
    simp only [main, after]
    rw [bind_of_ok get_apply]
    simp only [hcount, if_true, pure_apply]
  · refine .inr ⟨Nat.le_of_not_lt hcount, ?_⟩
    simp only [after, main_picks env r (Nat.le_of_not_lt hcount)]

/-- A run during which capture writes nothing carries one file of the ring to its
destination, or part of it, or nothing. -/
theorem main_carry (cfg : Config) (env : Env) (r : MoverRun) (fs : FS) (hbetween : r.between = [])
    (hh : r.move.copy2.Honest) :
    ∃ x, Replica.Carry ⟨.ring, x⟩ ⟨destDir cfg r, x⟩ fs.contents
      (after (main cfg env r) fs).contents := by
  rcases main_cases cfg env r fs with ⟨_, h⟩ | ⟨_, h⟩
  · exact ⟨"", by rw [h]; exact .nothing⟩
  rw [hbetween] at h
  rw [h]
  rcases pickAndMove_cases cfg env r fs with ⟨_, h⟩ | ⟨x, hx, ⟨_, _, h⟩ | ⟨_, h⟩⟩
  · exact ⟨"", by rw [captureAll, List.foldl_nil, h]; exact .nothing⟩
  · exact ⟨x, by rw [captureAll, List.foldl_nil, h]; exact .nothing⟩
  · obtain ⟨f, hf, -, -⟩ := pickOldestClosed_mem hx
    refine ⟨x, ?_⟩
    rw [captureAll, List.foldl_nil, h]
    exact shutilMove_carry hh (ring_ne_dest cfg r x x) hf

end

end SeerSensor.MoveOldest
