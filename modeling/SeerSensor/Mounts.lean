/-
The search for an export drive, as each of the two programs writes it: the
first mount candidate that is mounted, writable, statable and free enough.
The mover answers with the dated directory it will write to, the exporter with
the free bytes it logs.
-/
import Mathlib.Algebra.Order.Ring.Rat
import SeerSensor.Files

namespace SeerSensor

/-- The fields of `os.statvfs` that are used. -/
structure StatVfs where
  bavail : Nat
  frsize : Nat
  blocks : Nat
  deriving DecidableEq

/-- What the operating system answers about each mount candidate; `volume` is
the drive that is there. -/
structure Mounts where
  ismount : String → Bool
  writable : String → Bool
  statvfs : String → Except String StatVfs
  volume : String → Drive

/-- `free_bytes / total_bytes * 100`, zero on an empty volume. -/
def freePct (st : StatVfs) : ℚ :=
  let freeBytes := st.bavail * st.frsize
  let totalBytes := st.blocks * st.frsize
  if totalBytes > 0 then (freeBytes : ℚ) / totalBytes * 100 else 0

/-- `move_oldest.detect_export_drive`: the mount and the dated directory on it. -/
def detectExportDrive (m : Mounts) (minFreePct : ℚ) (date : Date) : List String → Option (String × Dir)
  | [] => none
  | candidate :: rest =>
    if m.ismount candidate = false then detectExportDrive m minFreePct date rest
    else if m.writable candidate = false then detectExportDrive m minFreePct date rest
    else match m.statvfs candidate with
      | .error _ => detectExportDrive m minFreePct date rest
      | .ok st =>
        if freePct st ≥ minFreePct then some (candidate, .pcap (m.volume candidate) date)
        else detectExportDrive m minFreePct date rest

/-- `seer_hotswap.detect_export_target`: the mount and its free bytes. -/
def detectExportTarget (m : Mounts) (minFreePct : ℚ) : List String → Option (String × Nat)
  | [] => none
  | candidate :: rest =>
    if m.ismount candidate = false then detectExportTarget m minFreePct rest
    else if m.writable candidate = false then detectExportTarget m minFreePct rest
    else match m.statvfs candidate with
      | .error _ => detectExportTarget m minFreePct rest
      | .ok st =>
        if freePct st ≥ minFreePct then some (candidate, st.bavail * st.frsize)
        else detectExportTarget m minFreePct rest

section
variable {m : Mounts} {minFreePct : ℚ} {date : Date}

theorem detectExportDrive_mounted : ∀ {cs : List String} {mount : String} {dest : Dir},
    detectExportDrive m minFreePct date cs = some (mount, dest) →
      m.ismount mount = true ∧ dest = .pcap (m.volume mount) date
  | [], _, _, h => by simp [detectExportDrive] at h
  | c :: cs, mount, dest, h => by
    simp only [detectExportDrive] at h
    split at h
    · exact detectExportDrive_mounted h
    next hm =>
    split at h
    · exact detectExportDrive_mounted h
    split at h
    · exact detectExportDrive_mounted h
    split at h
    · simp only [Option.some.injEq, Prod.mk.injEq] at h
      obtain ⟨rfl, rfl⟩ := h
      exact ⟨by simpa using hm, rfl⟩
    · exact detectExportDrive_mounted h

end

/-! ## The first that qualifies -/

/-- The share of a volume that is free, in per cent, is large enough. A volume of no size is
full. -/
def FreeEnough (st : StatVfs) (minFreePct : ℚ) : Prop :=
  (0 < st.blocks * st.frsize →
    minFreePct ≤ (st.bavail * st.frsize : Nat) / ((st.blocks * st.frsize : Nat) : ℚ) * 100) ∧
  (st.blocks * st.frsize = 0 → minFreePct ≤ 0)

theorem freePct_ge_iff {st : StatVfs} {minFreePct : ℚ} : freePct st ≥ minFreePct ↔ FreeEnough st minFreePct := by
  rcases Nat.eq_zero_or_pos (st.blocks * st.frsize) with hempty | hsize
  · simp [freePct, FreeEnough, hempty]
  · simp [freePct, FreeEnough, hsize, hsize.ne']

/-- A drive fit for export: mounted, writable, statable and free enough. -/
def Qualifies (m : Mounts) (minFreePct : ℚ) (candidate : String) : Prop :=
  m.ismount candidate = true ∧ m.writable candidate = true ∧
    ∃ st, m.statvfs candidate = .ok st ∧ FreeEnough st minFreePct

instance (m : Mounts) (minFreePct : ℚ) (candidate : String) :
    Decidable (Qualifies m minFreePct candidate) :=
  match h : m.statvfs candidate with
  | .error _ => isFalse fun ⟨_, _, _, hst, _⟩ => by rw [h] at hst; cases hst
  | .ok st =>
    decidable_of_iff (m.ismount candidate = true ∧ m.writable candidate = true ∧ freePct st ≥ minFreePct)
      (by simp [Qualifies, h, freePct_ge_iff])

/-- The body of both loops: what a candidate that passes the tests gives, or
else what the rest of the list gives. -/
def probe {α : Type} (m : Mounts) (minFreePct : ℚ) (candidate : String) (hit : StatVfs → Option α)
    (miss : Option α) : Option α :=
  if m.ismount candidate = false then miss
  else if m.writable candidate = false then miss
  else match m.statvfs candidate with
    | .error _ => miss
    | .ok st => if freePct st ≥ minFreePct then hit st else miss

section
variable {α : Type} (m : Mounts) (minFreePct : ℚ)

/-- One turn of either loop answers with the candidate exactly if it qualifies. -/
theorem probe_map {c : String} {hit : StatVfs → Option (String × α)} (miss : Option (String × α))
    (hhit : ∀ st, (hit st).map (·.1) = some c) :
    (probe m minFreePct c hit miss).map (·.1) =
      if Qualifies m minFreePct c then some c else miss.map (·.1) := by
  unfold probe
  split
  · next hm => rw [if_neg (fun h : Qualifies m minFreePct c => by simp [h.1] at hm)]
  split
  · next hw => rw [if_neg (fun h : Qualifies m minFreePct c => by simp [h.2.1] at hw)]
  next hm hw =>
  split
  · next hst =>
    rw [if_neg]
    rintro ⟨-, -, st, hok, -⟩
    cases hst.symm.trans hok
  next st hst =>
  split
  · next hfree =>
    rw [if_pos ⟨by simpa using hm, by simpa using hw, st, hst, freePct_ge_iff.mp hfree⟩]
    exact hhit st
  · next hfree =>
    rw [if_neg]
    rintro ⟨-, -, st', hok, hfree'⟩
    cases hst.symm.trans hok
    exact hfree (freePct_ge_iff.mpr hfree')

theorem detectExportDrive_eq_find (date : Date) (cs : List String) :
    (detectExportDrive m minFreePct date cs).map (·.1) = cs.find? fun c => Qualifies m minFreePct c := by
  induction cs with
  | nil => rfl
  | cons c cs ih =>
    have hturn : detectExportDrive m minFreePct date (c :: cs) = probe m minFreePct c
        (fun _ => some (c, .pcap (m.volume c) date)) (detectExportDrive m minFreePct date cs) := rfl
    rw [hturn, probe_map m minFreePct _ fun _ => rfl, ih, List.find?_cons]
    split <;> simp_all

theorem detectExportTarget_eq_find (cs : List String) :
    (detectExportTarget m minFreePct cs).map (·.1) = cs.find? fun c => Qualifies m minFreePct c := by
  induction cs with
  | nil => rfl
  | cons c cs ih =>
    have hturn : detectExportTarget m minFreePct (c :: cs) = probe m minFreePct c
        (fun st => some (c, st.bavail * st.frsize)) (detectExportTarget m minFreePct cs) := rfl
    rw [hturn, probe_map m minFreePct _ fun _ => rfl, ih, List.find?_cons]
    split <;> simp_all

end

/-- **The two programs choose the same drive**, whatever the operating system
answers: the earliest candidate that qualifies, and none exactly when none
does. -/
theorem same_drive_chosen (m : Mounts) (minFreePct : ℚ) (date : Date) (cs : List String) :
    (detectExportDrive m minFreePct date cs).map (·.1) = (detectExportTarget m minFreePct cs).map (·.1) ∧
    (∀ mount, (detectExportTarget m minFreePct cs).map (·.1) = some mount ↔
      ∃ before rest, cs = before ++ mount :: rest ∧ Qualifies m minFreePct mount ∧
        ∀ c ∈ before, ¬ Qualifies m minFreePct c) ∧
    ((detectExportTarget m minFreePct cs).map (·.1) = none ↔ ∀ c ∈ cs, ¬ Qualifies m minFreePct c) := by
  rw [detectExportDrive_eq_find, detectExportTarget_eq_find]
  refine ⟨rfl, fun mount => ?_, ?_⟩
  · rw [List.find?_eq_some_iff_append]
    refine ⟨fun h => ?_, fun h => ?_⟩
    · obtain ⟨hq, before, rest, hcs, hbefore⟩ := h
      exact ⟨before, rest, hcs, by simpa using hq, fun c hc => by simpa using hbefore c hc⟩
    · obtain ⟨before, rest, hcs, hq, hbefore⟩ := h
      exact ⟨by simpa using hq, before, rest, hcs, fun c hc => by simpa using hbefore c hc⟩
  · rw [List.find?_eq_none]
    simp

/-- Nothing is mounted. -/
def noMounts : Mounts where
  ismount := fun _ => false
  writable := fun _ => false
  statvfs := fun _ => .error "[Errno 2] No such file or directory"
  volume := fun _ => ""

/-- One writable drive, half empty, at `/mnt/SEER_EXT`. -/
def oneMount (d : Drive) : Mounts where
  ismount := fun c => c = "/mnt/SEER_EXT"
  writable := fun _ => true
  statvfs := fun _ => .ok ⟨50, 4096, 100⟩
  volume := fun _ => d

end SeerSensor
