/-
The state file, character by character: the exporter rewrites it while consoles
read it.

`update_state` truncates the file, writes the new text in pieces and closes it;
`read_hotswap_state` opens it and calls read until a call returns nothing. There is
no lock and no renaming, so a read that begins between the truncation and the last
piece gets the beginning of an object, which does not parse and is turned into `{}`:
the console says that no drive is connected while every state published says that
one is. A read that is under way when the file is truncated may go on in the new
text in the middle of a line.

`Quiet` is what a lock would give, and `quiet_reads_sound` that it is enough.
-/
import SeerSensor.Lib.FlatJson
import SeerSensor.Published

namespace SeerSensor.StateReads

open FlatJson (Members Value)
open MainLoop (StateFile StateRecord)

/-- A state as published: its times are those of `isoformat`. -/
structure Update where
  record : StateRecord
  plain : FlatJson.Plain record.updated ∧ ∀ ts ∈ record.lastExportTs, FlatJson.Plain ts
  deriving DecidableEq

/-- The dictionary of `update_state`. -/
def Update.members (u : Update) : Members :=
  [("drive_present", .bool u.record.drivePresent),
    ("last_export_ts", match u.record.lastExportTs with | none => .null | some ts => .str ts),
    ("total_exported", .nat u.record.totalExported),
    ("updated", .str u.record.updated)]

/-- What is written for it. -/
def Update.text (u : Update) : List Char := FlatJson.dump u.members

/-- `read_hotswap_state`, of the text read; whatever does not parse is `{}`. -/
def loaded (text : List Char) : Members := (FlatJson.load text).getD []

/-- Python's truth of a value. -/
def truthy : Value → Bool
  | .null => false
  | .bool b => b
  | .nat n => n ≠ 0
  | .str s => s ≠ ""

/-- Whether the console says that a drive is connected: `hs_state.get("drive_present",
False)`, the last member of a name counting. -/
def connected (ms : Members) : Bool :=
  ((ms.reverse.lookup "drive_present").map truthy).getD false

/-- What a read of the state shows; `none` is that no state was published. -/
def shown (published : Option Update) : Members := (published.map Update.members).getD []

/-! ## The processes -/

/-- A call of `read_hotswap_state` under way: what it got so far, and the states it may
return, which are the last completed one before it and those in progress since. -/
structure Reading where
  got : List Char := []
  admissible : List (Option Update)

/-- A call that returned. -/
structure Returned where
  value : Members
  admissible : List (Option Update)

/-- The file, the exporter at it, and the consoles. -/
structure Sys where
  file : Option (List Char)
  /-- The update in progress and how much of it is written. -/
  writing : Option (Update × Nat) := none
  last : Option Update
  reading : Nat → Option Reading := fun _ => none
  returned : List Returned := []

/-- What the file system does next for the exporter or for one of the consoles. -/
inductive Act where
  | openWrite (u : Update)
  | write (k : Nat)
  | closeWrite
  | openRead (console : Nat)
  | read (console : Nat) (k : Nat)
  | endRead (console : Nat)

/-- The console's read is now `r`. -/
def Sys.setReading (s : Sys) (console : Nat) (r : Option Reading) : Sys :=
  { s with reading := Function.update s.reading console r }

/-- The reads under way may return the update, too. -/
def Reading.allow (u : Update) (r : Reading) : Reading := { r with admissible := r.admissible ++ [some u] }

/-- One call of the file system. -/
def step (s : Sys) : Act → Option Sys
  | .openWrite u =>
    match s.writing with
    | some _ => none
    | none =>
      some { s with
        file := some []
        writing := some (u, 0)
        reading := fun c => (s.reading c).map (Reading.allow u) }
  | .write k =>
    match s.writing, s.file with
    | some (u, n), some text =>
      if 0 < k ∧ n + k ≤ u.text.length then
        some { s with file := some (text ++ (u.text.drop n).take k), writing := some (u, n + k) }
      else
        none
    | _, _ => none
  | .closeWrite =>
    match s.writing with
    | some (u, n) => if n = u.text.length then some { s with writing := none, last := some u } else none
    | none => none
  | .openRead c =>
    match s.reading c, s.file with
    | none, none => some { s with returned := ⟨[], [s.last]⟩ :: s.returned }
    | none, some _ =>
      some (s.setReading c (some { admissible := s.last :: (s.writing.map fun w => some w.1).toList }))
    | some _, _ => none
  | .read c k =>
    match s.reading c, s.file with
    | some r, some text =>
      if 0 < k ∧ r.got.length + k ≤ text.length then
        some (s.setReading c (some { r with got := r.got ++ (text.drop r.got.length).take k }))
      else
        none
    | _, _ => none
  | .endRead c =>
    match s.reading c, s.file with
    | some r, some text =>
      if text.length ≤ r.got.length then
        some { s.setReading c none with returned := ⟨loaded r.got, r.admissible⟩ :: s.returned }
      else
        none
    | _, _ => none

/-- Nobody is at the file, which holds the last state published, if any was. -/
def Sys.start (last : Option Update) : Sys := { file := last.map Update.text, last := last }

/-- The call returned one of the states it may return, and said that no drive is
connected only if one of them does. -/
structure Returned.Sound (r : Returned) : Prop where
  state : ∃ u ∈ r.admissible, r.value = shown u
  connected : (∀ u ∈ r.admissible, connected (shown u) = true) → StateReads.connected r.value = true

/-- Every call that returned was right. -/
def Sys.Sound (s : Sys) : Prop := ∀ r ∈ s.returned, r.Sound

/-- No update is between its truncation and its last character. -/
def Sys.Whole (s : Sys) : Prop := ∀ u n, s.writing = some (u, n) → n = u.text.length

/-- What a lock would give: no read call in the middle of an update, and no update in
the middle of a read. -/
def Quiet (s : Sys) : Act → Prop
  | .openWrite _ => ∀ c r, s.reading c = some r → r.got = []
  | .read _ _ => s.Whole
  | .endRead _ => s.Whole
  | _ => True

/-! ## What is in the file -/

section
variable {s s' : Sys} {a : Act} {u : Update} {c : Nat} {r : Reading} {text : List Char}

theorem Update.members_plain (u : Update) : FlatJson.PlainMembers u.members := by
  intro m hm
  simp only [Update.members, List.mem_cons, List.not_mem_nil, or_false] at hm
  rcases hm with rfl | rfl | rfl | rfl
  · exact ⟨show FlatJson.Plain "drive_present" by decide, trivial⟩
  · refine ⟨show FlatJson.Plain "last_export_ts" by decide, ?_⟩
    cases hts : u.record.lastExportTs with
    | none => trivial
    | some ts => exact u.plain.2 ts (by simp [hts])
  · exact ⟨show FlatJson.Plain "total_exported" by decide, trivial⟩
  · exact ⟨show FlatJson.Plain "updated" by decide, u.plain.1⟩

theorem loaded_text (u : Update) : loaded u.text = u.members := by
  rw [loaded, Update.text, FlatJson.load_dump u.members_plain]
  rfl

theorem loaded_take (u : Update) {n : Nat} (h : n < u.text.length) : loaded (u.text.take n) = [] := by
  rw [loaded, Update.text, FlatJson.load_take u.members_plain h]
  rfl

/-- A step and what it asks. -/
inductive Step (s : Sys) : Act → Sys → Prop
  | openWrite (u : Update) (h : s.writing = none) :
    Step s (.openWrite u) { s with
      file := some []
      writing := some (u, 0)
      reading := fun c => (s.reading c).map (Reading.allow u) }
  | write {u : Update} {n k : Nat} {text : List Char} (hw : s.writing = some (u, n)) (hf : s.file = some text)
    (hk : 0 < k) (hle : n + k ≤ u.text.length) :
    Step s (.write k)
      { s with file := some (text ++ (u.text.drop n).take k), writing := some (u, n + k) }
  | closeWrite {u : Update} (hw : s.writing = some (u, u.text.length)) :
    Step s .closeWrite { s with writing := none, last := some u }
  | missing {c : Nat} (hr : s.reading c = none) (hf : s.file = none) :
    Step s (.openRead c) { s with returned := ⟨[], [s.last]⟩ :: s.returned }
  | openRead {c : Nat} {text : List Char} (hr : s.reading c = none) (hf : s.file = some text) :
    Step s (.openRead c)
      (s.setReading c (some { admissible := s.last :: (s.writing.map fun w => some w.1).toList }))
  | read {c k : Nat} {r : Reading} {text : List Char} (hr : s.reading c = some r) (hf : s.file = some text)
    (hk : 0 < k) (hle : r.got.length + k ≤ text.length) :
    Step s (.read c k)
      (s.setReading c (some { r with got := r.got ++ (text.drop r.got.length).take k }))
  | endRead {c : Nat} {r : Reading} {text : List Char} (hr : s.reading c = some r) (hf : s.file = some text)
    (hle : text.length ≤ r.got.length) :
    Step s (.endRead c)
      { s.setReading c none with returned := ⟨loaded r.got, r.admissible⟩ :: s.returned }

theorem step_cases (h : step s a = some s') : Step s a s' := by
  cases a with
  | openWrite u =>
    simp only [step] at h
    split at h
    next => cases h
    next hw => cases h; exact .openWrite u hw
  | write k =>
    simp only [step] at h
    split at h
    next u n text hw hf =>
      split_ifs at h with hk
      cases h
      exact .write hw hf hk.1 hk.2
    next => cases h
  | closeWrite =>
    simp only [step] at h
    split at h
    next u n hw =>
      split_ifs at h with hn
      cases h
      exact .closeWrite (hn ▸ hw)
    next => cases h
  | openRead c =>
    simp only [step] at h
    split at h
    next hr hf => cases h; exact .missing hr hf
    next hr hf => cases h; exact .openRead hr hf
    next => cases h
  | read c k =>
    simp only [step] at h
    split at h
    next r text hr hf =>
      split_ifs at h with hk
      cases h
      exact .read hr hf hk.1 hk.2
    next => cases h
  | endRead c =>
    simp only [step] at h
    split at h
    next r text hr hf =>
      split_ifs at h with hle
      cases h
      exact .endRead hr hf hle
    next => cases h

/-- The state whose text is in the file, or on its way there. -/
def Sys.current (s : Sys) : Option Update :=
  match s.writing with
  | some (u, _) => some u
  | none => s.last

/-- The file holds the last state published or the beginning of the next. -/
structure Filed (s : Sys) : Prop where
  idle : s.writing = none → s.file = s.last.map Update.text
  busy : ∀ u n, s.writing = some (u, n) → s.file = some (u.text.take n) ∧ n ≤ u.text.length

/-- With quiet steps, besides, the reads under way have the beginning of the file. -/
structure Inv (s : Sys) : Prop extends Filed s where
  current : ∀ c r, s.reading c = some r → s.current ∈ r.admissible
  begun : ∀ c r, s.reading c = some r → r.got ≠ [] → s.Whole ∧ ∀ text, s.file = some text → r.got <+: text
  sound : s.Sound

theorem Filed.start (last : Option Update) : Filed (.start last) where
  idle := fun _ => rfl
  busy := fun u n h => by cases h

/-- No step asks for quiet to keep the file so. -/
theorem Filed.step (hI : Filed s) (h : step s a = some s') : Filed s' := by
  cases step_cases h with
  | openWrite u hw =>
    refine ⟨fun h => (by cases h), fun v n h => ?_⟩
    cases h
    exact ⟨by rw [List.take_zero], Nat.zero_le _⟩
  | @write u n k text hw hf hk hle =>
    refine ⟨fun h => (by cases h), fun v m h => ?_⟩
    cases h
    have htext : text = u.text.take n := Option.some.inj (hf.symm.trans (hI.busy u n hw).1)
    exact ⟨by rw [htext, List.take_add], hle⟩
  | @closeWrite u hw =>
    refine ⟨fun _ => ?_, fun v n h => by cases h⟩
    have hfile := (hI.busy u _ hw).1
    rw [List.take_length] at hfile
    exact hfile
  | missing hr hf => exact ⟨hI.idle, hI.busy⟩
  | openRead hr hf => exact ⟨hI.idle, hI.busy⟩
  | read hr hf hk hle => exact ⟨hI.idle, hI.busy⟩
  | endRead hr hf hle => exact ⟨hI.idle, hI.busy⟩

theorem Inv.start (last : Option Update) : Inv (.start last) where
  toFiled := Filed.start last
  current := fun c r h => by cases h
  begun := fun c r h => by cases h
  sound := fun r h => by cases h

theorem Inv.got_prefix (hI : Inv s) (hr : s.reading c = some r) (hf : s.file = some text) : r.got <+: text := by
  by_cases hgot : r.got = []
  · rw [hgot]
    exact List.nil_prefix
  · exact (hI.begun c r hr hgot).2 text hf

theorem Filed.text_of_whole (hI : Filed s) (hw : s.Whole) (hf : s.file = some text) :
    ∃ u, s.current = some u ∧ text = u.text := by
  cases hwr : s.writing with
  | none =>
    have hlast := (hI.idle hwr).symm.trans hf
    obtain ⟨u, hu, htext⟩ := Option.map_eq_some_iff.mp hlast
    exact ⟨u, by rw [Sys.current, hwr, hu], htext.symm⟩
  | some w =>
    obtain ⟨u, n⟩ := w
    have hfile := (hI.busy u n hwr).1
    rw [hw u n hwr, List.take_length] at hfile
    exact ⟨u, by rw [Sys.current, hwr], Option.some.inj (hf.symm.trans hfile)⟩

theorem Returned.sound_of_mem {u : Option Update} {admissible : List (Option Update)} (h : u ∈ admissible) :
    Returned.Sound ⟨shown u, admissible⟩ :=
  ⟨⟨u, h, rfl⟩, fun hall => hall u h⟩

theorem Filed.last_of_missing (hI : Filed s) (hf : s.file = none) : s.last = none := by
  cases hw : s.writing with
  | none => exact Option.map_eq_none_iff.mp ((hI.idle hw).symm.trans hf)
  | some w =>
    have hfile := (hI.busy w.1 w.2 hw).1
    rw [hf] at hfile
    cases hfile

theorem current_mem_opened (s : Sys) : s.current ∈ s.last :: (s.writing.map fun w => some w.1).toList := by
  cases hw : s.writing with
  | none => simp [Sys.current, hw]
  | some w => simp [Sys.current, hw]

/-! ## The reads under way -/

theorem setReading_forall {P : Reading → Prop} (hI : ∀ c r, s.reading c = some r → P r) {new : Option Reading}
    (hnew : ∀ r, new = some r → P r) : ∀ c' r, (s.setReading c new).reading c' = some r → P r := by
  intro c' r hr
  by_cases hc : c' = c
  · subst hc
    exact hnew r (by simpa [Sys.setReading] using hr)
  · exact hI c' r (by simpa [Sys.setReading, hc] using hr)

/-- Every read under way may return what is in the file or on its way there. -/
theorem current_step (hI : ∀ c r, s.reading c = some r → s.current ∈ r.admissible) (h : step s a = some s') :
    ∀ c r, s'.reading c = some r → s'.current ∈ r.admissible := by
  cases step_cases h with
  | openWrite u hw =>
    intro c r hr
    obtain ⟨r, -, rfl⟩ := Option.map_eq_some_iff.mp hr
    simp [Sys.current, Reading.allow]
  | write hw hf hk hle =>
    intro c r hr
    have hcur := hI c r hr
    rwa [Sys.current, hw] at hcur
  | closeWrite hw =>
    intro c r hr
    have hcur := hI c r hr
    rwa [Sys.current, hw] at hcur
  | missing hr hf => exact hI
  | openRead hr hf =>
    refine setReading_forall hI fun r he => ?_
    cases he
    exact current_mem_opened s
  | @read c k r text hr hf hk hle =>
    refine setReading_forall hI fun r' he => ?_
    cases he
    exact hI c r hr
  | endRead hr hf hle => exact setReading_forall hI fun r he => by cases he

/-- With quiet steps a read goes on in the text it began in. -/
theorem begun_step (hI : Inv s) (hquiet : Quiet s a) (h : step s a = some s') :
    ∀ c r, s'.reading c = some r → r.got ≠ [] → s'.Whole ∧ ∀ text, s'.file = some text → r.got <+: text := by
  cases step_cases h with
  | openWrite u hw =>
    intro c r hr hgot
    obtain ⟨r, hold, rfl⟩ := Option.map_eq_some_iff.mp hr
    exact absurd (hquiet c r hold) hgot
  | @write u n k text hw hf hk hle =>
    intro c r hr hgot
    -- a read that got something began after the last character
    have hfull := (hI.begun c r hr hgot).1 u n hw
    omega
  | closeWrite hw =>
    intro c r hr hgot
    exact ⟨fun v n hv => (by cases hv), (hI.begun c r hr hgot).2⟩
  | missing hr hf => exact hI.begun
  | openRead hr hf =>
    refine setReading_forall hI.begun fun r he hgot => ?_
    cases he
    exact absurd rfl hgot
  | @read c k r text hr hf hk hle =>
    refine setReading_forall hI.begun fun r' he _ => ⟨hquiet, fun text' hf' => ?_⟩
    cases he
    cases hf.symm.trans hf'
    have hgot : r.got = text.take r.got.length := List.prefix_iff_eq_take.mp (hI.got_prefix hr hf)
    have hnow : r.got ++ (text.drop r.got.length).take k = text.take (r.got.length + k) := by
      rw [List.take_add, ← hgot]
    rw [hnow]
    exact List.take_prefix _ _
  | endRead hr hf hle => exact setReading_forall hI.begun fun r he => by cases he

/-- With quiet steps what a read returns was published. -/
theorem sound_step (hI : Inv s) (hquiet : Quiet s a) (h : step s a = some s') : s'.Sound := by
  have hadd : ∀ e : Returned, e.Sound → ∀ r ∈ e :: s.returned, r.Sound := fun e he =>
    List.forall_mem_cons.mpr ⟨he, hI.sound⟩
  cases step_cases h with
  | openWrite u hw => exact hI.sound
  | write hw hf hk hle => exact hI.sound
  | closeWrite hw => exact hI.sound
  | missing hr hf =>
    refine hadd _ ?_
    rw [hI.last_of_missing hf]
    exact Returned.sound_of_mem (u := none) (by simp)
  | openRead hr hf => exact hI.sound
  | read hr hf hk hle => exact hI.sound
  | @endRead c r text hr hf hle =>
    refine hadd _ ?_
    have hread : r.got = text := (hI.got_prefix hr hf).eq_of_length_le hle
    obtain ⟨u, hcur, htext⟩ := hI.text_of_whole hquiet hf
    have hmem := hI.current c r hr
    rw [hcur] at hmem
    rw [hread, htext, loaded_text]
    exact Returned.sound_of_mem hmem

theorem Inv.step (hI : Inv s) (hquiet : Quiet s a) (h : step s a = some s') : Inv s' where
  toFiled := hI.toFiled.step h
  current := current_step hI.current h
  begun := begun_step hI hquiet h
  sound := sound_step hI hquiet h

end

/-- **Reads that no update disturbs return a published state.** In every run, from
any published state or none, whose read calls are made with no update between its
truncation and its last character, and whose updates begin with no read under way
that has got something, every read returns the state of the last update completed
before it or of one in progress, and says that no drive is connected only if one of
these does. -/
theorem quiet_reads_sound (last : Option Update) (as : List Act)
    (h : Runs.Meets step Quiet (.start last) as) : Runs.Always step Sys.Sound (.start last) as :=
  Runs.Always.mono (fun _ hI => hI.sound)
    (Runs.always_of_meets (fun _ _ _ hI hq hs => Inv.step hI hq hs) (Inv.start last) h)

theorem meets_of_reads {as : List Act} (has : ∀ a ∈ as, ∃ c k, a = .openRead c ∨ a = .read c k ∨ a = .endRead c)
    {s : Sys} (hw : s.writing = none) : Runs.Meets step Quiet s as := by
  induction as generalizing s with
  | nil => trivial
  | cons a as ih =>
    obtain ⟨⟨c, k, ha⟩, hmore⟩ := List.forall_mem_cons.mp has
    have hwhole : s.Whole := fun u n hu => by
      rw [hw] at hu
      cases hu
    intro s' hs'
    rcases ha with rfl | rfl | rfl
    · refine ⟨trivial, ih hmore ?_⟩
      cases step_cases hs' with
      | missing => exact hw
      | openRead => exact hw
    · refine ⟨hwhole, ih hmore ?_⟩
      cases step_cases hs' with
      | read => exact hw
    · refine ⟨hwhole, ih hmore ?_⟩
      cases step_cases hs' with
      | endRead => exact hw

/-- A drive is there, and nothing was exported yet. -/
def benchFirst : Update := ⟨⟨true, none, 0, "2026-01-01T00:00:00"⟩, by decide⟩

/-- It is still there two seconds later. -/
def benchSecond : Update := ⟨⟨true, none, 0, "2026-01-01T00:00:02"⟩, by decide⟩

/-- An update, and then a read. -/
theorem quiet_reads_sound_update :
    let as : List Act := [.openWrite benchSecond, .write 112, .closeWrite, .openRead 0, .read 0 112, .endRead 0]
    Runs.Always step Sys.Sound (.start (some benchFirst)) as ∧
      (Runs.run step (.start (some benchFirst)) as).map (fun s => s.returned.map (·.value)) =
        some [benchSecond.members] := by
  refine ⟨quiet_reads_sound _ _ ?_, by decide +kernel⟩
  intro s₁ h₁
  refine ⟨fun c r hr => (by cases hr), ?_⟩
  cases step_cases h₁
  intro s₂ h₂
  refine ⟨trivial, ?_⟩
  cases step_cases h₂
  intro s₃ h₃
  refine ⟨trivial, ?_⟩
  cases step_cases h₃
  refine meets_of_reads (fun a ha => ?_) rfl
  simp only [List.mem_cons, List.not_mem_nil, or_false] at ha
  rcases ha with rfl | rfl | rfl
  · exact ⟨0, 0, .inl rfl⟩
  · exact ⟨0, 112, .inr (.inl rfl)⟩
  · exact ⟨0, 0, .inr (.inr rfl)⟩

/-- The console reads while the file is truncated: it finds no drive, where both
states published say that there is one. -/
theorem torn_read_disconnects :
    connected (shown (some benchFirst)) = true ∧ connected (shown (some benchSecond)) = true ∧
    ∃ s, Runs.run step (.start (some benchFirst)) [.openWrite benchSecond, .openRead 0, .endRead 0] = some s ∧
      s.returned = [⟨[], [some benchFirst, some benchSecond]⟩] ∧ connected [] = false ∧ ¬ s.Sound := by
  refine ⟨by decide, by decide, _, rfl, rfl, rfl, fun h => ?_⟩
  have hsound := (h _ (List.mem_singleton.mpr rfl)).connected
  have hno : connected (loaded []) = true := hsound (by decide)
  revert hno
  decide

/-! ## A read at once -/

section
variable {s : Sys} {u : Update}

theorem connected_members (u : Update) : connected u.members = u.record.drivePresent := rfl

/-- The state file as the loop's model has it. -/
def Sys.stateFile (s : Sys) : StateFile :=
  match s.writing with
  | some (u, n) => if n = u.text.length then .written u.record else .torn
  | none =>
    match s.last with
    | some u => .written u.record
    | none => .missing

/-- A read of what is in the file now shows what the loop's model says it shows. -/
theorem Filed.connected_eq (hI : Filed s) :
    connected (loaded (s.file.getD [])) = MainLoop.drivePresent s.stateFile := by
  unfold Sys.stateFile
  cases hw : s.writing with
  | none =>
    rw [hI.idle hw]
    cases s.last with
    | none => rfl
    | some u => exact (congrArg connected (loaded_text u)).trans (connected_members u)
  | some w =>
    obtain ⟨u, n⟩ := w
    obtain ⟨hfile, hle⟩ := hI.busy u n hw
    rw [hfile, Option.getD_some]
    by_cases hn : n = u.text.length
    · simp only [hn, List.take_length, loaded_text, connected_members, if_true]
      rfl
    · simp only [hn, if_false]
      rw [loaded_take u (by omega)]
      rfl

/-- A call with nothing between its operations: one read call gets the whole text, and
another finds the end. -/
def atOnce (c : Nat) (text : List Char) : List Act :=
  if text = [] then [.openRead c, .endRead c] else [.openRead c, .read c text.length, .endRead c]

theorem setReading_self (s : Sys) (c : Nat) (new : Option Reading) : (s.setReading c new).reading c = new := by
  simp [Sys.setReading]

theorem step_openRead {c : Nat} {text : List Char} {s' : Sys} (hf : s.file = some text)
    (h : step s (.openRead c) = some s') :
    s' = s.setReading c (some { admissible := s.last :: (s.writing.map fun w => some w.1).toList }) := by
  cases step_cases h with
  | missing _ hmissing => rw [hmissing] at hf; cases hf
  | openRead => rfl

theorem step_endRead {c : Nat} {r : Reading} {s' : Sys} (hr : s.reading c = some r)
    (h : step s (.endRead c) = some s') : s'.returned = ⟨loaded r.got, r.admissible⟩ :: s.returned := by
  cases step_cases h with
  | endRead hr' =>
    cases hr.symm.trans hr'
    rfl

theorem run_atOnce {c : Nat} {text : List Char} (hf : s.file = some text) {s' : Sys}
    (h : Runs.run step s (atOnce c text) = some s') :
    s'.returned = ⟨loaded text, s.last :: (s.writing.map fun w => some w.1).toList⟩ :: s.returned := by
  unfold atOnce at h
  split_ifs at h with htext
  · obtain ⟨s₁, h₁, h⟩ := Runs.run_cons.mp h
    obtain ⟨s₂, h₂, h⟩ := Runs.run_cons.mp h
    cases h
    rw [step_openRead hf h₁] at h₂
    rw [step_endRead (setReading_self ..) h₂, htext]
    rfl
  · obtain ⟨s₁, h₁, h⟩ := Runs.run_cons.mp h
    obtain ⟨s₂, h₂, h⟩ := Runs.run_cons.mp h
    obtain ⟨s₃, h₃, h⟩ := Runs.run_cons.mp h
    cases h
    rw [step_openRead hf h₁] at h₂
    cases step_cases h₂ with
    | read hnew hfile =>
      cases (setReading_self ..).symm.trans hnew
      cases hf.symm.trans hfile
      rw [step_endRead (setReading_self ..) h₃]
      simp [Sys.setReading]

/-- **When a read at once is sound**: exactly when no update is between its truncation
and its last character, or nothing was published before. -/
theorem read_at_once_sound_iff (last : Option Update) {as : List Act} {c : Nat} {text : List Char} {s' : Sys}
    (hs : Runs.run step (.start last) as = some s) (hf : s.file = some text)
    (h : Runs.run step s (atOnce c text) = some s') :
    ∃ e, s'.returned = e :: s.returned ∧ (e.Sound ↔ s.Whole ∨ s.last = none) := by
  have hI : Filed s := Runs.invariant (fun _ _ _ hI hs => Filed.step hI hs) (Filed.start last) hs
  refine ⟨_, run_atOnce hf h, ?_⟩
  by_cases hw : s.Whole
  · obtain ⟨u, hcur, rfl⟩ := hI.text_of_whole hw hf
    refine iff_of_true ?_ (.inl hw)
    rw [loaded_text]
    exact Returned.sound_of_mem (hcur ▸ current_mem_opened s)
  · rw [or_iff_right hw]
    simp only [Sys.Whole, not_forall] at hw
    obtain ⟨u, n, hwr, hn⟩ := hw
    obtain ⟨hfile, hle⟩ := hI.busy u n hwr
    cases hf.symm.trans hfile
    rw [loaded_take u (by omega), hwr]
    refine ⟨fun hsound => ?_, fun hlast => ?_⟩
    · obtain ⟨v, hv, hshown⟩ := hsound.state
      -- no state published is empty
      have hnone : v = none := by
        cases v with
        | none => rfl
        | some v => cases hshown
      subst hnone
      simpa [eq_comm] using hv
    · rw [hlast]
      exact Returned.sound_of_mem (u := none) (by simp)

end

end SeerSensor.StateReads
