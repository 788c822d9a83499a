/-
The names tcpdump gives the files of the ring, `SEER-%Y%m%d-%H%M%S.pcap`, and what
the rest of the sensor gets from them.

The numbers have fixed widths, so the names compare as the clock's readings do. That
is why a rotation whose reading is later than the one before never meets a name that
was used, which the pipeline's laws assume of every capture, and why the exporter,
which sorts the backlog by name, goes through it in the order of capture. Both end
where the clock is set back: the name is then the old one.
-/
import SeerSensor.Lib.Padded
import SeerSensor.Pipeline
import SeerSensor.TransferLog

namespace SeerSensor.CaptureNames

open Padded Pipeline

/-- What `strftime` reads off the clock. -/
structure Stamp where
  year : Nat
  month : Nat
  day : Nat
  hour : Nat
  minute : Nat
  second : Nat
  year_lt : year < 10000
  month_le : month ≤ 12
  day_le : day ≤ 31
  hour_lt : hour < 24
  minute_lt : minute < 60
  /-- A leap second has the number 60. -/
  second_le : second ≤ 60
  deriving DecidableEq

/-- In the order in which the name has them. -/
def Stamp.fields (t : Stamp) : List Nat := [t.year, t.month, t.day, t.hour, t.minute, t.second]

/-- The clock reads less. -/
def Stamp.Before (s t : Stamp) : Prop := s.fields < t.fields

instance (s t : Stamp) : Decidable (s.Before t) := inferInstanceAs (Decidable (s.fields < t.fields))

/-- The characters of `%Y%m%d-%H%M%S`. -/
def Stamp.text (t : Stamp) : List Char :=
  pad 4 t.year ++ (pad 2 t.month ++ (pad 2 t.day ++ (['-'] ++ (pad 2 t.hour ++ (pad 2 t.minute ++
    pad 2 t.second)))))

/-- `SEER-%Y%m%d-%H%M%S.pcap`. -/
def captureName (t : Stamp) : Name := String.ofList ("SEER-".toList ++ (t.text ++ ".pcap".toList))

/-! ## Names as readings -/

section
variable {s t u : Stamp}

theorem Stamp.Before.trans (h₁ : s.Before t) (h₂ : t.Before u) : s.Before u := List.lt_trans h₁ h₂

theorem Stamp.two_digits (t : Stamp) :
    t.month < 100 ∧ t.day < 100 ∧ t.hour < 100 ∧ t.minute < 100 ∧ t.second < 100 := by
  obtain ⟨year, month, day, hour, minute, second, -, hmonth, hday, hhour, hminute, hsecond⟩ := t
  dsimp only
  omega

theorem Stamp.text_lt : s.text < t.text ↔ s.Before t := by
  have hyear := pad_lt (w := 4) s.year_lt t.year_lt
  have hyear' := pad_inj (w := 4) s.year_lt t.year_lt
  have hlt : ∀ m n, m < 100 → n < 100 → (pad 2 m < pad 2 n ↔ m < n) := fun m n => pad_lt (w := 2)
  have heq : ∀ m n, m < 100 → n < 100 → (pad 2 m = pad 2 n ↔ m = n) := fun m n => pad_inj (w := 2)
  have hdash : ¬ (['-'] : List Char) < ['-'] := List.lt_irrefl _
  obtain ⟨hsm, hsd, hsh, hsi, hss⟩ := s.two_digits
  obtain ⟨htm, htd, hth, hti, hts⟩ := t.two_digits
  unfold Stamp.text Stamp.Before Stamp.fields
  rw [append_lt_append (by simp), append_lt_append (by simp), append_lt_append (by simp),
    append_lt_append rfl, append_lt_append (by simp), append_lt_append (by simp), hyear, hyear',
    hlt _ _ hsm htm, heq _ _ hsm htm, hlt _ _ hsd htd, heq _ _ hsd htd, hlt _ _ hsh hth, heq _ _ hsh hth,
    hlt _ _ hsi hti, heq _ _ hsi hti, hlt _ _ hss hts]
  simp only [List.cons_lt_cons_iff, hdash, false_or, true_and, List.lt_irrefl, and_false, or_false]

/-- **The names compare as the readings.** -/
theorem captureName_lt : captureName s < captureName t ↔ s.Before t := by
  have hlen : s.text.length = t.text.length := by simp [Stamp.text]
  have hname : ∀ t, (captureName t).toList = "SEER-".toList ++ (t.text ++ ".pcap".toList) :=
    fun t => String.toList_ofList
  rw [String.lt_iff, hname, hname]
  generalize "SEER-".toList = head
  generalize ".pcap".toList = tail
  rw [append_lt_append rfl, append_lt_append hlen, Stamp.text_lt]
  simp

end

/-! ## Rotation -/

/-- The pipeline, and the reading at the last rotation. -/
structure Clocked where
  world : World
  last : Option Stamp := none

/-- A rotation, or what else happens. -/
inductive Tick where
  /-- tcpdump opens a new file. -/
  | rotate (t : Stamp) (f : File)
  | event (e : Event)

/-- The clock has moved on since the last rotation. -/
def Clocked.later (c : Clocked) (t : Stamp) : Prop := ∀ s, c.last = some s → s.Before t

instance (c : Clocked) (t : Stamp) : Decidable (c.later t) :=
  match h : c.last with
  | none => isTrue fun s hs => by rw [h] at hs; cases hs
  | some l => decidable_of_iff (l.Before t) (by simp [Clocked.later, h])

/-- A capture is named by the clock at its rotation. -/
def Clocked.step (cfg : MoveOldest.Config) (env : Env) (c : Clocked) : Tick → Option Clocked
  | .rotate t f =>
    if c.later t then (c.world.event cfg env (.capture (captureName t) f)).map fun w => ⟨w, some t⟩
    else none
  -- every capture is a rotation
  | .event (.capture _ _) => none
  | .event e => (c.world.event cfg env e).map fun w => { c with world := w }

/-- Each name used is that of a reading no later than the last. -/
def Stamped (c : Clocked) : Prop :=
  ∀ n ∈ c.world.captured.map (·.1), ∃ s l, n = captureName s ∧ c.last = some l ∧ (s = l ∨ s.Before l)

/-- The names used compare as they were used. -/
def Ordered (c : Clocked) : Prop := (c.world.captured.map (·.1)).Pairwise (· < ·)

section
variable {cfg : MoveOldest.Config} {env : Env} {c c' : Clocked} {t : Stamp} {w w' : World} {e : Event}
  {n : Name} {f : File}

theorem Stamped.lt (h : Stamped c) (hlater : c.later t) (hn : n ∈ c.world.captured.map (·.1)) :
    n < captureName t := by
  obtain ⟨s, l, rfl, hlast, hs⟩ := h n hn
  refine captureName_lt.mpr ?_
  rcases hs with rfl | hs
  · exact hlater s hlast
  · exact hs.trans (hlater l hlast)

theorem event_capture (h : w.event cfg env (.capture n f) = some w') :
    w'.captured = w.captured ++ [(n, f.bytes)] := by
  obtain ⟨-, h⟩ := Option.ite_none_left_eq_some.mp h
  cases h
  rfl

theorem event_captured (h : w.event cfg env e = some w') (he : ∀ n f, e ≠ .capture n f) :
    w'.captured = w.captured := by
  cases e with
  | capture n f => exact absurd rfl (he n f)
  | mover r =>
    obtain ⟨-, h⟩ := Option.ite_none_right_eq_some.mp h
    cases h
    rfl
  | mount drive => cases h; rfl
  | day date => cases h; rfl

theorem step_cases {tick : Tick} (h : c.step cfg env tick = some c') :
    (∃ (t : Stamp) (f : File), c.later t ∧ c'.last = some t ∧
      c'.world.captured = c.world.captured ++ [(captureName t, f.bytes)]) ∨
    c'.last = c.last ∧ c'.world.captured = c.world.captured := by
  cases tick with
  | rotate t f =>
    obtain ⟨hlater, h⟩ := Option.ite_none_right_eq_some.mp h
    obtain ⟨w, hw, rfl⟩ := Option.map_eq_some_iff.mp h
    exact .inl ⟨t, f, hlater, rfl, event_capture hw⟩
  | event e =>
    have hother : (∀ n f, e ≠ .capture n f) ∧
        (c.world.event cfg env e).map (fun w => { c with world := w }) = some c' := by
      cases e with
      | capture n f => cases h
      | mover r | mount drive | day date => exact ⟨fun _ _ => nofun, h⟩
    obtain ⟨w, hw, rfl⟩ := Option.map_eq_some_iff.mp hother.2
    exact .inr ⟨rfl, event_captured hw hother.1⟩

theorem step_stamped (hc : Stamped c) {tick : Tick} (h : c.step cfg env tick = some c') : Stamped c' := by
  intro n hn
  rcases step_cases h with ⟨t, f, hlater, hlast, hcaptured⟩ | ⟨hlast, hcaptured⟩
  · rw [hcaptured, List.map_append, List.mem_append] at hn
    rcases hn with hn | hn
    · obtain ⟨s, l, hname, hold, hs⟩ := hc n hn
      refine ⟨s, t, hname, hlast, .inr ?_⟩
      rcases hs with rfl | hs
      · exact hlater s hold
      · exact hs.trans (hlater l hold)
    · exact ⟨t, t, by simpa using hn, hlast, .inl rfl⟩
  · rw [hcaptured] at hn
    rw [hlast]
    exact hc n hn

theorem step_ordered (hc : Stamped c) (ho : Ordered c) {tick : Tick} (h : c.step cfg env tick = some c') :
    Ordered c' := by
  unfold Ordered
  rcases step_cases h with ⟨t, f, hlater, -, hcaptured⟩ | ⟨-, hcaptured⟩
  · rw [hcaptured, List.map_append, List.pairwise_append]
    refine ⟨ho, List.pairwise_singleton _ _, fun n hn m hm => ?_⟩
    obtain rfl : m = captureName t := by simpa using hm
    exact hc.lt hlater hn
  · rw [hcaptured]
    exact ho

theorem stamped_of_start (hstart : c.world.captured = []) : Stamped c ∧ Ordered c := by
  unfold Stamped Ordered
  rw [hstart]
  exact ⟨by simp, List.Pairwise.nil⟩

end

/-- **A clock that only moves on never reuses a name.** In every run of the pipeline
whose captures are rotations at ever later readings, the pipeline takes the next
rotation, whatever it has captured before: no name comes up twice. -/
theorem rotation_never_reuses (cfg : MoveOldest.Config) (env : Env) (c : Clocked)
    (hstart : c.world.captured = []) (ticks : List Tick) :
    Runs.Always (Clocked.step cfg env) (fun c => ∀ t f, c.later t →
      (c.world.event cfg env (.capture (captureName t) f)).isSome = true) c ticks := by
  refine (Runs.always_of_step (fun _ _ _ h hs => step_stamped h hs) ticks (stamped_of_start hstart).1).mono
    fun c hc t f hlater => ?_
  have hfresh : captureName t ∉ c.world.captured.map (·.1) := fun hmem =>
    absurd (hc.lt hlater hmem) (lt_irrefl _)
  simp [World.event, hfresh]

def benchStamp : Stamp := ⟨2026, 10, 25, 1, 59, 40, by decide, by decide, by decide, by decide, by decide,
  by decide⟩

def benchLater : Stamp := ⟨2026, 10, 25, 2, 0, 0, by decide, by decide, by decide, by decide, by decide,
  by decide⟩

theorem rotation_never_reuses_twice :
    ∃ c, Runs.run (Clocked.step { thresh := 2 } benchEnv)
        { world := { disk := { fs := .empty }, mounted := none, date := "20261025" } }
        [.rotate benchStamp ⟨[0x61], 0⟩] = some c ∧
      captureName benchStamp = "SEER-20261025-015940.pcap" ∧
      (c.world.event { thresh := 2 } benchEnv (.capture (captureName benchLater) ⟨[0x62], 20⟩)).isSome = true := by
  have hran : (Runs.run (Clocked.step { thresh := 2 } benchEnv)
      { world := { disk := { fs := .empty }, mounted := none, date := "20261025" } }
      [.rotate benchStamp ⟨[0x61], 0⟩]).map (·.last) = some (some benchStamp) := by
    decide +kernel
  obtain ⟨c, hrun, hlast⟩ := Option.map_eq_some_iff.mp hran
  refine ⟨c, hrun, by decide +kernel, ?_⟩
  refine (rotation_never_reuses { thresh := 2 } benchEnv _ rfl [.rotate benchStamp ⟨[0x61], 0⟩]).last hrun
    benchLater ⟨[0x62], 20⟩ fun s hs => ?_
  cases hlast.symm.trans hs
  decide

/-! ## Export -/

theorem logged_sublist (env : Env) (rotate : ℚ) (inp : BatchInput) (drive : Drive) (d : Disk) :
    (logged env rotate inp drive d).Sublist (backlogPcaps d.fs) := by
  have hkept : ∀ l : List Name, (inp.log.kept l).Sublist l := by
    intro l
    cases inp.log with
    | none => exact List.Sublist.refl l
    | refused e => exact List.nil_sublist l
    | torn k j e => exact List.take_sublist k l
  unfold logged
  split
  · exact (hkept _).trans List.filter_sublist
  · exact List.nil_sublist _

/-- The entries a pass adds stand in the order of their names. -/
theorem newEntries_ordered (env : Env) (rotate : ℚ) (inp : BatchInput) (drive : Drive) (d : Disk) :
    (newEntries env rotate inp drive d).Pairwise fun e e' => e.src.name < e'.src.name := by
  rw [newEntries_eq, List.pairwise_map]
  exact (backlogPcaps_ordered d.fs).sublist (logged_sublist env rotate inp drive d)

/-- **The exporter goes through the backlog in the order of capture.** After any run of the
pipeline whose captures are rotations at ever later readings, whatever the backlog holds
by then and whatever fails: of the entries that a pass adds to `TRANSFER.LOG` those of
captures stand in the order in which tcpdump opened the files. -/
theorem log_in_capture_order (cfg : MoveOldest.Config) (env : Env) (c : Clocked)
    (hstart : c.world.captured = []) (ticks : List Tick) (c' : Clocked)
    (hrun : Runs.run (Clocked.step cfg env) c ticks = some c') (rotate : ℚ) (inp : BatchInput)
    (drive : Drive) (d : Disk) :
    (newEntries env rotate inp drive d).Pairwise fun e e' => ∀ (i j : Nat) (b b' : Bytes),
      c'.world.captured[i]? = some (e.src.name, b) → c'.world.captured[j]? = some (e'.src.name, b') →
      i < j := by
  have hstep : ∀ c tick c', Stamped c ∧ Ordered c → Clocked.step cfg env c tick = some c' →
      Stamped c' ∧ Ordered c' := fun _ _ _ h hs => ⟨step_stamped h.1 hs, step_ordered h.1 h.2 hs⟩
  obtain ⟨-, hordered⟩ := Runs.invariant hstep (stamped_of_start hstart) hrun
  refine (newEntries_ordered env rotate inp drive d).imp fun hlt i j b b' hi hj => ?_
  have hname : ∀ {k : Nat} {n : Name} {b : Bytes}, c'.world.captured[k]? = some (n, b) →
      (c'.world.captured.map (·.1))[k]? = some n := fun hk => by simp [hk]
  rcases lt_trichotomy i j with h | rfl | h
  · exact h
  · have hsame := congrArg Prod.fst (Option.some.inj (hi.symm.trans hj))
    exact absurd hsame (ne_of_lt hlt)
  · obtain ⟨hjlt, hj'⟩ := List.getElem?_eq_some_iff.mp (hname hj)
    obtain ⟨hilt, hi'⟩ := List.getElem?_eq_some_iff.mp (hname hi)
    have hback := List.pairwise_iff_getElem.mp hordered j i hjlt hilt h
    rw [hj', hi'] at hback
    exact absurd hlt (lt_asymm hback)

/-- Both files are in the backlog; the second came there first. -/
def benchBacklog : Disk where
  fs := (FS.empty.write ⟨.backlog, captureName benchLater⟩ ⟨[0x62], 20⟩).write
    ⟨.backlog, captureName benchStamp⟩ ⟨[0x61], 0⟩

theorem log_in_capture_order_twice :
    ∃ c, Runs.run (Clocked.step { thresh := 2 } benchEnv)
        { world := { disk := { fs := .empty }, mounted := none, date := "20261025" } }
        [.rotate benchStamp ⟨[0x61], 0⟩, .rotate benchLater ⟨[0x62], 20⟩] = some c ∧
      (newEntries benchEnv 20 { date := "20261025", turn := fun _ => { now := 100 } } "SEER_EXT"
        benchBacklog).Pairwise fun e e' => ∀ (i j : Nat) (b b' : Bytes),
      c.world.captured[i]? = some (e.src.name, b) → c.world.captured[j]? = some (e'.src.name, b') →
      i < j := by
  have hran : (Runs.run (Clocked.step { thresh := 2 } benchEnv)
      { world := { disk := { fs := .empty }, mounted := none, date := "20261025" } }
      [.rotate benchStamp ⟨[0x61], 0⟩, .rotate benchLater ⟨[0x62], 20⟩]).isSome = true := by
    decide +kernel
  obtain ⟨c, hrun⟩ := Option.isSome_iff_exists.mp hran
  exact ⟨c, hrun, log_in_capture_order { thresh := 2 } benchEnv _ rfl _ c hrun _ _ _ _⟩

end SeerSensor.CaptureNames
