/-
The pipeline as a conveyor belt (`Belt`). Where a move, once begun, goes
through, the three places of the pipeline are three stretches of one belt: a
capture enters in the ring, is carried to the backlog or to a drive, from the
backlog to a drive, and is never in two places or in none.

Two kinds of step fall outside: those that write the destination and then fail
(a torn copy, a sync, a hash or an unlink that raises), which leave the file in
both places, and the capture of a name that some drive has already.
-/
import SeerSensor.Lib.Belt
import SeerSensor.Lib.Refine
import SeerSensor.Survival

namespace SeerSensor

open Raise Replica

/-- Nothing is written, or everything. -/
def CopyFault.Whole (fault : CopyFault) : Prop := fault = .none ∨ fault.isRefused = true

instance : DecidablePred CopyFault.Whole := fun _ => inferInstanceAs (Decidable (_ ∨ _))

/-- A move that has begun goes through. -/
def MoveFaults.Whole (fl : MoveFaults) : Prop := fl.copy2.Whole ∧ fl.unlink = none

instance : DecidablePred MoveFaults.Whole := fun _ => inferInstanceAs (Decidable (_ ∧ _))

/-- A transfer that has begun goes through. -/
def TransferFaults.Whole (fl : TransferFaults) : Prop :=
  fl.move.Whole ∧ fl.copy2.Whole ∧ fl.sync = none ∧ fl.hashSrc = none ∧ fl.hashDst = none ∧
    fl.unlinkSrc = none

instance : DecidablePred TransferFaults.Whole := fun _ => inferInstanceAs (Decidable (_ ∧ _))

section
variable {env : Env} {fs fs' : FS} {src dst : Path} {f w : File} {r : TransferResult}

theorem CopyFault.Whole.honest {fault : CopyFault} (h : fault.Whole) : fault.Honest := by
  rintro b rfl
  rcases h with h | h
  · cases h
  · cases h

theorem CopyFault.Whole.not_torn {n : Nat} {now : Time} {e : String} :
    ¬ (CopyFault.torn n now e).Whole := by
  rintro (h | h)
  · cases h
  · cases h

theorem shift_rename (hsrc : fs.read src = some f) :
    Shift src dst fs.contents ((fs.remove src).write dst f).contents := by
  rw [FS.contents_write, FS.contents_remove]
  exact .whole (FS.contents_of_read hsrc)

theorem shift_copy_unlink (hne : src ≠ dst) (hsrc : fs.read src = some f) :
    Shift src dst fs.contents ((fs.write dst f).remove src).contents := by
  rw [FS.contents_remove, FS.contents_write, Function.update_comm hne.symm]
  exact .whole (FS.contents_of_read hsrc)

theorem MoveEnd.shift {fl : MoveFaults} (h : MoveEnd env fl src dst f fs fs') (hwhole : fl.Whole)
    (hne : src ≠ dst) (hsrc : fs.read src = some f) : Shift src dst fs.contents fs'.contents := by
  cases h with
  | renamed => exact shift_rename hsrc
  | torn _ hc => exact absurd (hc ▸ hwhole.1) CopyFault.Whole.not_torn
  | copied _ hw =>
    rw [hw.honest hwhole.1.honest]
    exact shift_copy_unlink hne hsrc
  | undeleted _ _ hu => cases hwhole.2.symm.trans hu

theorem TransferEnd.shift {fl : TransferFaults} (h : TransferEnd env fl src dst f fs r fs')
    (hwhole : fl.Whole) (hne : src ≠ dst) (hsrc : fs.read src = some f) :
    Shift src dst fs.contents fs'.contents := by
  obtain ⟨hmove, hcopy, hsync, hhs, hhd, hunlink⟩ := hwhole
  cases h with
  | renamed | renamedUnhashed => exact shift_rename hsrc
  | fellBack _ _ hw | fellBackUnhashed _ _ hw =>
    rw [hw.honest hmove.1.honest]
    exact shift_copy_unlink hne hsrc
  | fellBackTorn _ _ hc => exact absurd (hc ▸ hmove.1) CopyFault.Whole.not_torn
  | fellBackUndeleted _ _ _ hu => cases hmove.2.symm.trans hu
  | torn _ hc => exact absurd (hc ▸ hcopy) CopyFault.Whole.not_torn
  | unverified _ _ hfault =>
    rcases hfault with h | ⟨-, h | ⟨-, h⟩⟩
    · cases hsync.symm.trans h
    · cases hhs.symm.trans h
    · cases hhd.symm.trans h
  | mismatch _ hw _ _ _ hdigest => exact absurd (by rw [hw.honest hcopy.honest]) hdigest
  | mismatchKept _ hw _ _ _ hdigest => exact absurd (by rw [hw.honest hcopy.honest]) hdigest
  | moved _ hw =>
    rw [hw.honest hcopy.honest]
    exact shift_copy_unlink hne hsrc
  | undeleted _ _ _ _ _ _ hu => cases hunlink.symm.trans hu

end

namespace Pipeline

open MoveOldest

/-- How far along a directory is. -/
def stage : Dir → Nat
  | .ring => 0
  | .backlog => 1
  | .pcap _ _ => 2

/-- The one place is further on. -/
def Before (p q : Dir) : Prop := stage p < stage q

instance : DecidableRel Before := fun p q => inferInstanceAs (Decidable (stage p < stage q))

/-- The belt of the pipeline: captures enter in the ring. -/
abbrev beltStep : Belt.Items Name Bytes Dir → Belt.Move Name Bytes Dir →
    Option (Belt.Items Name Bytes Dir) :=
  Belt.step .ring Before

/-- A capture has a name of its own, and what moves goes through. -/
def Clean (w : World) : Act → Prop
  | .event (.capture n _) => ∀ dir, w.disk.fs.contents ⟨dir, n⟩ = none
  | .event (.mover r) => r.move.Whole
  | .event _ => True
  | .transfer n inp => (inp.turn n).transfer.Whole

/-- The world is what the belt says: a capture is where its item is, complete,
and nowhere else, and no other file waits in the ring or in the backlog. -/
structure OnBelt (w : World) (m : Belt.Items Name Bytes Dir) : Prop where
  captured : ∀ n b, (n, b) ∈ w.captured ↔ ∃ dir, m n = some (b, dir)
  there : ∀ n b dir, m n = some (b, dir) → ∀ dir', w.disk.fs.contents ⟨dir', n⟩ =
    if dir' = dir then some b else none
  nothing : ∀ n, m n = none → ∀ dir, dir = .ring ∨ dir = .backlog → w.disk.fs.contents ⟨dir, n⟩ = none

section
variable {cfg : Config} {env : Env} {rotate : ℚ} {w w' : World} {m : Belt.Items Name Bytes Dir}
  {n x : Name} {b : Bytes} {src dst : Dir}

theorem before_of_ne_ring (h : dst ≠ .ring) : Before .ring dst := by
  cases dst with
  | ring => exact absurd rfl h
  | backlog => decide
  | pcap drive date => exact Nat.zero_lt_succ 1

theorem before_drive (drive : Drive) (date : Date) : Before .backlog (.pcap drive date) :=
  Nat.lt_succ_self 1

theorem Before.trans (p q r : Dir) (hpq : Before p q) (hqr : Before q r) : Before p r :=
  Nat.lt_trans hpq hqr

theorem contents_none_of_names {fs : FS} {d : Dir} (h : fs.names d = []) (n : Name) :
    fs.contents ⟨d, n⟩ = none := by
  cases hb : fs.contents ⟨d, n⟩ with
  | none => rfl
  | some b =>
    obtain ⟨f, hf, -⟩ := FS.contents_eq_some.mp hb
    have hmem := FS.mem_names.mpr ⟨f, hf⟩
    rw [h] at hmem
    cases hmem

theorem World.Start.onBelt (h : w.Start) : OnBelt w fun _ => none where
  captured n b := by simp [h.captured]
  there n b dir hn := by cases hn
  nothing n _ dir hdir := by
    rcases hdir with rfl | rfl
    · exact contents_none_of_names h.ring n
    · exact contents_none_of_names h.backlog n

theorem OnBelt.item (h : OnBelt w m) (hsrc : src = .ring ∨ src = .backlog)
    (hb : w.disk.fs.contents ⟨src, x⟩ = some b) : m x = some (b, src) := by
  cases hx : m x with
  | none => cases (h.nothing x hx src hsrc).symm.trans hb
  | some item =>
    obtain ⟨c, dir⟩ := item
    rw [h.there x c dir hx src] at hb
    obtain ⟨hdir, hbytes⟩ := Option.ite_none_right_eq_some.mp hb
    cases hbytes
    rw [hdir]

/-- A file that goes through from one place to a later one is an item carried there. -/
theorem OnBelt.shift (h : OnBelt w m) (hsrc : src = .ring ∨ src = .backlog) (hbefore : Before src dst)
    (hcap : w'.captured = w.captured)
    (hshift : Shift ⟨src, x⟩ ⟨dst, x⟩ w.disk.fs.contents w'.disk.fs.contents) :
    ∃ moves m', Runs.run beltStep m moves = some m' ∧ OnBelt w' m' := by
  generalize hc : w'.disk.fs.contents = contents' at hshift
  cases hshift with
  | nothing =>
    refine ⟨[], m, rfl, ⟨?_, ?_, ?_⟩⟩
    · rw [hcap]; exact h.captured
    · rw [hc]; exact h.there
    · rw [hc]; exact h.nothing
  | whole hb =>
    have hx := h.item hsrc hb
    refine ⟨[.carry x dst], _, Runs.run_cons.mpr ⟨_, Belt.step_carry hx hbefore, rfl⟩, ?_⟩
    -- only the carried name is touched, at its two places
    have hother : ∀ n dir, n ≠ x → w'.disk.fs.contents ⟨dir, n⟩ = w.disk.fs.contents ⟨dir, n⟩ := by
      intro n dir hn
      rw [hc]
      simp [Function.update, hn]
    refine ⟨fun n b => ?_, fun n b dir hn dir' => ?_, fun n hn dir hdir => ?_⟩
    · rw [hcap, h.captured]
      by_cases hnx : n = x
      · subst hnx
        simp [hx]
      · simp [hnx]
    · by_cases hnx : n = x
      · subst hnx
        simp only [Function.update_self, Option.some.injEq, Prod.mk.injEq] at hn
        obtain ⟨rfl, rfl⟩ := hn
        rw [hc]
        by_cases hd : dir' = dst
        · simp [hd]
        · by_cases hs : dir' = src
          · simp [Function.update, hs]
          · simp [Function.update, hd, hs, h.there n _ _ hx dir']
      · rw [hother n dir' hnx]
        exact h.there n b dir (by simpa [hnx] using hn) dir'
    · have hnx : n ≠ x := by
        rintro rfl
        simp at hn
      rw [hother n dir hnx]
      exact h.nothing n (by simpa [hnx] using hn) dir hdir

theorem main_shift (cfg : Config) (env : Env) (r : MoverRun) (fs : FS) (hbetween : r.between = [])
    (hwhole : r.move.Whole) :
    ∃ x, Shift ⟨.ring, x⟩ ⟨destDir cfg r, x⟩ fs.contents (after (main cfg env r) fs).contents := by
  rcases main_cases cfg env r fs with ⟨_, h⟩ | ⟨_, h⟩
  · exact ⟨"", by rw [h]; exact .nothing⟩
  rw [h, hbetween, captureAll, List.foldl_nil]
  rcases pickAndMove_cases cfg env r fs with ⟨_, h⟩ | ⟨x, hx, ⟨_, _, h⟩ | ⟨_, h⟩⟩
  · exact ⟨"", by rw [h]; exact .nothing⟩
  · exact ⟨x, by rw [h]; exact .nothing⟩
  · obtain ⟨f, hf, -, -⟩ := pickOldestClosed_mem hx
    refine ⟨x, ?_⟩
    rw [h]
    rcases shutilMove_ends env r.move (ring_ne_dest cfg r x x) hf with ⟨_, h⟩ | ⟨_, hend⟩
    · rw [h]; exact .nothing
    · exact hend.shift hwhole (ring_ne_dest cfg r x x) hf

theorem turnFs_shift {inp : BatchInput} {fs : FS} (hwhole : (inp.turn n).transfer.Whole)
    (hdst : dst ≠ .backlog) :
    Shift ⟨.backlog, n⟩ ⟨dst, n⟩ fs.contents (turnFs env rotate inp dst fs n).contents := by
  unfold turnFs
  split
  · exact .nothing
  · next hact =>
    obtain ⟨f, hf⟩ := turnActive_found (by simpa using hact)
    unfold turnOut
    have hne : (⟨.backlog, n⟩ : Path) ≠ ⟨dst, n⟩ := Path.ne_of_dir hdst.symm
    rcases transferFile_ends env (inp.turn n).transfer hne hf with ⟨_, _, h⟩ | ⟨_, _, _, h, hend⟩
    · rw [h]; exact .nothing
    · rw [h]
      exact hend.shift hwhole hne hf

/-- One clean step is one move of the belt, or none. -/
theorem step_onBelt : Runs.Refines (step cfg env rotate) Clean beltStep OnBelt := by
  intro w m a w' h hclean hstep
  cases a with
  | transfer n inp =>
    obtain ⟨drive, -, -, rfl⟩ := transfer_eq hstep
    exact h.shift (.inr rfl) (before_drive drive inp.date) rfl
      (turnFs_shift hclean (by simp))
  | event e =>
    cases e with
    | mount drive => cases hstep; exact ⟨[], m, rfl, ⟨h.captured, h.there, h.nothing⟩⟩
    | day date => cases hstep; exact ⟨[], m, rfl, ⟨h.captured, h.there, h.nothing⟩⟩
    | mover r =>
      simp only [step, World.event] at hstep
      split at hstep
      next hmay =>
        cases hstep
        obtain ⟨x, hx⟩ := main_shift cfg env r w.disk.fs hmay.1 hclean
        exact h.shift (.inl rfl) (before_of_ne_ring (destDir_ne_ring cfg r)) rfl hx
      · cases hstep
    | capture n f =>
      simp only [step, World.event] at hstep
      split at hstep
      · cases hstep
      next hnew =>
        cases hstep
        have hfree : m n = none := by
          cases hn : m n with
          | none => rfl
          | some item =>
            exact absurd (List.mem_map.mpr ⟨_, (h.captured n item.1).mpr ⟨item.2, hn⟩, rfl⟩) hnew
        refine ⟨[.enter n f.bytes], _, Runs.run_cons.mpr ⟨_, Belt.step_enter hfree, rfl⟩, ?_⟩
        refine ⟨fun k b => ?_, fun k b dir hk dir' => ?_, fun k hk dir hdir => ?_⟩
        · simp only [List.mem_append, List.mem_singleton, Prod.mk.injEq, h.captured]
          by_cases hkn : k = n
          · subst hkn
            simp [hfree, eq_comm]
          · simp [hkn]
        · simp only
          by_cases hkn : k = n
          · subst hkn
            simp only [Function.update_self, Option.some.injEq, Prod.mk.injEq] at hk
            obtain ⟨rfl, rfl⟩ := hk
            by_cases hd : dir' = .ring
            · simp [hd]
            · rw [FS.contents_write_ne (by simp [hd]), hclean dir', if_neg hd]
          · rw [FS.contents_write_ne (by simp [hkn])]
            exact h.there k b dir (by simpa [hkn] using hk) dir'
        · have hkn : k ≠ n := by
            rintro rfl
            simp at hk
          simp only
          rw [FS.contents_write_ne (by simp [hkn])]
          exact h.nothing k (by simpa [hkn] using hk) dir hdir

end

/-- **The pipeline is a conveyor belt.** After any clean run from an empty ring
and backlog, in any order of captures, runs of the mover, transfers, drives
coming and going and new days, with any of the moves refused before it began,
some run of the belt ends with every capture where the world has it: complete in
one place and in no other. -/
theorem pipeline_refines_belt (cfg : Config) (env : Env) (rotate : ℚ) (w : World) (hstart : w.Start)
    (acts : List Act) (hclean : Runs.Meets (step cfg env rotate) Clean w acts) (w' : World)
    (hrun : Runs.run (step cfg env rotate) w acts = some w') :
    ∃ moves m, Runs.run beltStep (fun _ => none) moves = some m ∧ OnBelt w' m :=
  step_onBelt.run hstart.onBelt hclean hrun

/-- **Captures only go on.** Between any two states of a clean run, a capture
that was there in the first is complete in exactly one place in each of them,
and the second place is the first or a later one: what has reached a drive stays
there, and what has left the ring never comes back. -/
theorem captures_go_forward (cfg : Config) (env : Env) (rotate : ℚ) (w : World) (hstart : w.Start)
    (before after : List Act)
    (hclean : Runs.Meets (step cfg env rotate) Clean w (before ++ after)) (w₁ w₂ : World)
    (hbefore : Runs.run (step cfg env rotate) w before = some w₁)
    (hafter : Runs.run (step cfg env rotate) w₁ after = some w₂) (n : Name) (b : Bytes)
    (hn : (n, b) ∈ w₁.captured) :
    ∃ dir₁ dir₂, (dir₂ = dir₁ ∨ Before dir₁ dir₂) ∧
      (∀ dir, w₁.disk.fs.contents ⟨dir, n⟩ = if dir = dir₁ then some b else none) ∧
      ∀ dir, w₂.disk.fs.contents ⟨dir, n⟩ = if dir = dir₂ then some b else none := by
  obtain ⟨_, m₁, -, hon₁⟩ := step_onBelt.run hstart.onBelt hclean.init hbefore
  obtain ⟨_, m₂, hmoves, hon₂⟩ := step_onBelt.run hon₁ (hclean.rest hbefore) hafter
  obtain ⟨dir₁, hdir₁⟩ := (hon₁.captured n b).mp hn
  obtain ⟨dir₂, hdir₂, hle⟩ := Belt.run_kept Before.trans hmoves hdir₁
  exact ⟨dir₁, dir₂, hle, hon₁.there n b dir₁ hdir₁, hon₂.there n b dir₂ hdir₂⟩

/-- A day: two captures, the older one to the backlog and from there to a drive. -/
def benchDay : List Act :=
  benchCaptures ++ [benchMove 30 noMounts .none, .event (.mount (some "SEER_EXT")),
    .transfer "a.pcap" { date := "20260101", turn := fun _ => { now := 100 } }]

def benchMorning : World := { disk := { fs := .empty }, mounted := none, date := "20260101" }

theorem benchDay_clean : Runs.Meets (step { thresh := 2 } benchEnv 20) Clean benchMorning benchDay := by
  intro w₁ h₁
  refine ⟨fun _ => rfl, fun w₂ h₂ => ⟨?_, fun w₃ _ => ⟨⟨.inl rfl, rfl⟩, fun w₄ _ => ⟨trivial, fun w₅ _ =>
    ⟨⟨⟨.inl rfl, rfl⟩, .inl rfl, rfl, rfl, rfl, rfl⟩, trivial⟩⟩⟩⟩⟩
  cases h₁
  intro dir
  show ((FS.empty.write ⟨.ring, "a.pcap"⟩ ⟨[0x61, 0x62], 0⟩).contents ⟨dir, "b.pcap"⟩) = none
  rw [FS.contents_write_ne (by simp)]
  rfl

theorem pipeline_refines_belt_day :
    ∃ w m, Runs.run (step { thresh := 2 } benchEnv 20) benchMorning benchDay = some w ∧ OnBelt w m ∧
      m "a.pcap" = some ([0x61, 0x62], .pcap "SEER_EXT" "20260101") := by
  have hran : (Runs.run (step { thresh := 2 } benchEnv 20) benchMorning benchDay).map
      (fun w => (w.captured, w.disk.fs.contents ⟨.pcap "SEER_EXT" "20260101", "a.pcap"⟩)) =
      some ([("a.pcap", [0x61, 0x62]), ("b.pcap", [0x62])], some [0x61, 0x62]) := by
    decide +kernel
  obtain ⟨w, hrun, hw⟩ := Option.map_eq_some_iff.mp hran
  obtain ⟨hcap, hdrive⟩ := Prod.mk.inj hw
  obtain ⟨_, m, -, hon⟩ := pipeline_refines_belt { thresh := 2 } benchEnv 20 benchMorning ⟨rfl, rfl, rfl⟩
    benchDay benchDay_clean w hrun
  refine ⟨w, m, hrun, hon, ?_⟩
  obtain ⟨dir, hdir⟩ := (hon.captured "a.pcap" [0x61, 0x62]).mp (by simp [hcap])
  rw [hon.there _ _ _ hdir] at hdrive
  rw [hdir, (Option.ite_none_right_eq_some.mp hdrive).1]

/-- In the backlog after the mover, on the drive after the exporter, with the
captures and the mover's run before and the rest after. -/
theorem captures_go_forward_day :
    ∃ dir₁ dir₂, (dir₂ = dir₁ ∨ Before dir₁ dir₂) ∧ dir₁ = .backlog ∧
      dir₂ = .pcap "SEER_EXT" "20260101" := by
  have hmid : (Runs.run (step { thresh := 2 } benchEnv 20) benchMorning (benchDay.take 3)).map
      (fun w => (w.captured, w.disk.fs.contents ⟨.backlog, "a.pcap"⟩)) =
      some ([("a.pcap", [0x61, 0x62]), ("b.pcap", [0x62])], some [0x61, 0x62]) := by
    decide +kernel
  have hend : (Runs.run (step { thresh := 2 } benchEnv 20) benchMorning benchDay).map
      (fun w => w.disk.fs.contents ⟨.pcap "SEER_EXT" "20260101", "a.pcap"⟩) =
      some (some [0x61, 0x62]) := by
    decide +kernel
  obtain ⟨w₁, hrun₁, hw₁⟩ := Option.map_eq_some_iff.mp hmid
  obtain ⟨hcap, hback⟩ := Prod.mk.inj hw₁
  obtain ⟨w₂, hrun₂, hdrive⟩ := Option.map_eq_some_iff.mp hend
  obtain ⟨_, hinit, hrest⟩ := Runs.run_append.mp
    (show Runs.run _ benchMorning (benchDay.take 3 ++ benchDay.drop 3) = some w₂ from hrun₂)
  cases hrun₁.symm.trans hinit
  obtain ⟨dir₁, dir₂, hle, h₁, h₂⟩ := captures_go_forward { thresh := 2 } benchEnv 20 benchMorning
    ⟨rfl, rfl, rfl⟩ (benchDay.take 3) (benchDay.drop 3) benchDay_clean w₁ w₂ hrun₁ hrest "a.pcap"
    [0x61, 0x62] (by simp [hcap])
  rw [h₁] at hback
  rw [h₂] at hdrive
  exact ⟨dir₁, dir₂, hle, (Option.ite_none_right_eq_some.mp hback).1.symm,
    (Option.ite_none_right_eq_some.mp hdrive).1.symm⟩

end Pipeline

end SeerSensor
