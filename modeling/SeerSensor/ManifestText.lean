/-
`MANIFEST.txt` read back. Its format is in its own header, `sha256  filename`,
and whoever has the drive checks the files against it: a line that is a digest,
two blanks and a name is an entry, and the header is not.

An entry that reads back is true, whatever went wrong in the pass that wrote it
and in every pass after it, as long as a name that was exported into a dated
directory does not come back to it. The one thing a write that stops part way
can do is cut the last name short.
-/
import SeerSensor.ExportBatchFacts
import SeerSensor.Lib.Runs
import SeerSensor.Manifest

namespace SeerSensor.ManifestText

open Raise

/-- A digit of `hexdigest`. -/
def isHex (c : Char) : Bool := c.isDigit || (decide ('a' ≤ c) && decide (c ≤ 'f'))

/-- Behind the digest. -/
def readName : List Char → Option Name
  | ' ' :: ' ' :: c :: name => some (String.ofList (c :: name))
  | _ => none

/-- `sha256  filename`. -/
def readLine (line : List Char) : Option (Name × String) :=
  let sha := line.takeWhile isHex
  if sha = [] then none else (readName (line.dropWhile isHex)).map fun n => (n, String.ofList sha)

/-- The entries in the text: a line is what stands between two newlines, so a name
with a newline in it makes two. -/
def readManifest (lines : List String) : List (Name × String) :=
  (lines.flatMap fun l => l.toList.splitOnP (· == '\n')).filterMap readLine

/-- What `hexdigest` returns. -/
def IsDigest (s : String) : Prop := s.toList ≠ [] ∧ ∀ c ∈ s.toList, isHex c = true

/-- The file of an entry is there and has its digest. -/
def Checks (env : Env) (fs : FS) (dest : Dir) (e : Name × String) : Prop :=
  ∃ f, fs.read ⟨dest, e.1⟩ = some f ∧ env.sha.digest f.bytes = e.2

/-- All of the lines, or `k` of them and `j` characters of the next. -/
inductive Part (all : List String) : List String → Prop
  | whole : Part all all
  | cut (k j : Nat) : Part all (all.take k ++ (all[k]?.map (sliceTo j)).toList)

/-! ## Lines -/

section
variable {n s : String} {generated : String} {entries : List (Name × String)} {lines : List String}

theorem readLine_digest {sha : List Char} (hne : sha ≠ []) (hhex : ∀ c ∈ sha, isHex c = true)
    (rest : List Char) :
    readLine (sha ++ ' ' :: rest) = (readName (' ' :: rest)).map fun n => (n, String.ofList sha) := by
  have htake : (sha ++ ' ' :: rest).takeWhile isHex = sha := by
    rw [List.takeWhile_append_of_pos hhex]
    simp [isHex]
  have hdrop : (sha ++ ' ' :: rest).dropWhile isHex = ' ' :: rest := by
    rw [List.dropWhile_append_of_pos hhex]
    simp [isHex]
  simp [readLine, htake, hdrop, hne]

theorem readLine_hex {sha : List Char} (hhex : ∀ c ∈ sha, isHex c = true) : readLine sha = none := by
  have hdrop : (sha ++ []).dropWhile isHex = [] := List.dropWhile_append_of_pos hhex
  rw [List.append_nil] at hdrop
  simp [readLine, hdrop, readName]

theorem manifestLine_toList (n s : String) :
    (manifestLine (n, s)).toList = s.toList ++ ' ' :: ' ' :: n.toList := by
  simp [manifestLine]

theorem readLine_manifestLine (hs : IsDigest s) (hn : n.toList ≠ []) :
    readLine (manifestLine (n, s)).toList = some (n, s) := by
  obtain ⟨c, name, hname⟩ := List.exists_cons_of_ne_nil hn
  have hread : readName (' ' :: ' ' :: n.toList) = some n := by
    rw [hname, readName, ← hname, String.ofList_toList]
  rw [manifestLine_toList, readLine_digest hs.1 hs.2, hread, Option.map_some, String.ofList_toList]

/-- A line that was cut is no entry, or its name was cut. -/
theorem readLine_take (hs : IsDigest s) (n : String) (j : Nat) :
    readLine ((manifestLine (n, s)).toList.take j) = none ∨
      ∃ m : String, m.toList <+: n.toList ∧
        readLine ((manifestLine (n, s)).toList.take j) = some (m, s) := by
  rw [manifestLine_toList]
  rcases Nat.le_total j s.toList.length with hj | hj
  · left
    rw [List.take_append_of_le_length hj]
    exact readLine_hex fun c hc => hs.2 c (List.mem_of_mem_take hc)
  · obtain ⟨i, rfl⟩ := Nat.exists_eq_add_of_le hj
    rw [List.take_length_add_append]
    match i with
    | 0 =>
      left
      simpa using readLine_hex hs.2
    | 1 =>
      left
      exact readLine_digest hs.1 hs.2 []
    | i + 2 =>
      rw [List.take_succ_cons, List.take_succ_cons, readLine_digest hs.1 hs.2]
      cases htake : n.toList.take i with
      | nil => exact .inl rfl
      | cons c name =>
        refine .inr ⟨String.ofList (c :: name), ?_, by rw [readName, Option.map_some, String.ofList_toList]⟩
        rw [String.toList_ofList, ← htake]
        exact List.take_prefix i _

theorem readLine_comment (rest : List Char) : readLine ('#' :: rest) = none := by
  simp [readLine, isHex]

theorem readLine_header {l : String} (hl : l ∈ manifestHeader generated) (j : Nat) :
    readLine (l.toList.take j) = none := by
  have hfirst : l.toList = [] ∨ ∃ rest, l.toList = '#' :: rest := by
    simp only [manifestHeader, List.mem_cons, List.not_mem_nil, or_false] at hl
    rcases hl with rfl | rfl | rfl | rfl
    · exact .inr ⟨_, rfl⟩
    · exact .inr ⟨_, by simp; rfl⟩
    · exact .inr ⟨_, rfl⟩
    · exact .inl rfl
  rcases hfirst with hnil | ⟨rest, hrest⟩
  · rw [hnil, List.take_nil]
    rfl
  · rw [hrest]
    cases j with
    | zero => rfl
    | succ j => exact readLine_comment _

/-! ## The whole text -/

theorem readManifest_append (xs ys : List String) :
    readManifest (xs ++ ys) = readManifest xs ++ readManifest ys := by
  simp [readManifest]

theorem readManifest_lines (h : ∀ l ∈ lines, '\n' ∉ l.toList) :
    readManifest lines = lines.filterMap fun l => readLine l.toList := by
  induction lines with
  | nil => rfl
  | cons l lines ih =>
    have hsplit : l.toList.splitOnP (· == '\n') = [l.toList] :=
      List.splitOnP_eq_singleton fun c hc => beq_eq_false_iff_ne.mpr fun he => h l (by simp) (he ▸ hc)
    have hcons : readManifest (l :: lines) = readManifest [l] ++ readManifest lines :=
      readManifest_append [l] lines
    have hone : readManifest [l] = (readLine l.toList).toList := by
      rw [readManifest, List.flatMap_singleton, hsplit]
      cases hread : readLine l.toList <;> simp [hread]
    rw [hcons, ih fun l hl => h l (by simp [hl]), hone]
    cases hread : readLine l.toList <;> simp [hread]

/-- Each name is a line's, and its digest is one. -/
def Writable (entries : List (Name × String)) : Prop :=
  ∀ e ∈ entries, e.1.toList ≠ [] ∧ '\n' ∉ e.1.toList ∧ IsDigest e.2

theorem IsDigest.newline (h : IsDigest s) : '\n' ∉ s.toList := fun hmem => by
  cases h.2 _ hmem

theorem newline_not_mem_lines (hgen : '\n' ∉ generated.toList) (hw : Writable entries) :
    ∀ l ∈ manifestHeader generated ++ entries.map manifestLine, '\n' ∉ l.toList := by
  intro l hl
  rcases List.mem_append.mp hl with hl | hl
  · simp only [manifestHeader, List.mem_cons, List.not_mem_nil, or_false] at hl
    rcases hl with rfl | rfl | rfl | rfl
    · decide
    · simpa using hgen
    · decide
    · decide
  · obtain ⟨⟨n, s⟩, he, rfl⟩ := List.mem_map.mp hl
    obtain ⟨-, hname, hsha⟩ := hw _ he
    rw [manifestLine_toList]
    simpa using ⟨hsha.newline, hname⟩

theorem filterMap_header (generated : String) :
    (manifestHeader generated).filterMap (fun l => readLine l.toList) = [] := by
  refine List.filterMap_eq_nil_iff.mpr fun l hl => ?_
  rw [← List.take_length (l := l.toList)]
  exact readLine_header hl _

theorem filterMap_entries (hw : Writable entries) :
    (entries.map manifestLine).filterMap (fun l => readLine l.toList) = entries := by
  induction entries with
  | nil => rfl
  | cons e entries ih =>
    obtain ⟨hname, -, hsha⟩ := hw e (by simp)
    have hread : readLine (manifestLine e).toList = some e := readLine_manifestLine hsha hname
    rw [List.map_cons, List.filterMap_cons, hread, ih fun e he => hw e (by simp [he])]

theorem readManifest_whole (hgen : '\n' ∉ generated.toList) (hw : Writable entries) :
    readManifest (manifestHeader generated ++ entries.map manifestLine) = entries := by
  rw [readManifest_lines (newline_not_mem_lines hgen hw), List.filterMap_append, filterMap_header,
    filterMap_entries hw, List.nil_append]

/-- What is left of the text is some of the entries in full, and at most one more
with its name cut. -/
theorem readManifest_part (hgen : '\n' ∉ generated.toList) (hw : Writable entries)
    (hpart : Part (manifestHeader generated ++ entries.map manifestLine) lines) :
    ∃ es, es ⊆ entries ∧ (readManifest lines = es ∨
      ∃ m e, e ∈ entries ∧ m.toList <+: e.1.toList ∧ readManifest lines = es ++ [(m, e.2)]) := by
  cases hpart with
  | whole => exact ⟨entries, List.Subset.refl _, .inl (readManifest_whole hgen hw)⟩
  | cut k j =>
    have hline := newline_not_mem_lines hgen hw
    rw [readManifest_append]
    refine ⟨readManifest ((manifestHeader generated ++ entries.map manifestLine).take k), ?_, ?_⟩
    · rw [readManifest_lines fun l hl => hline l (List.mem_of_mem_take hl)]
      refine fun e he => ?_
      rw [← readManifest_whole hgen hw, readManifest_lines hline]
      exact ((List.take_sublist k _).filterMap _).subset he
    · cases hnext : (manifestHeader generated ++ entries.map manifestLine)[k]? with
      | none => exact .inl (List.append_nil _)
      | some l =>
        have hmem := List.mem_of_getElem? hnext
        have hread : readManifest [sliceTo j l] = (readLine (l.toList.take j)).toList := by
          rw [readManifest_lines]
          · cases hcut : readLine (l.toList.take j) <;> simp [sliceTo, hcut]
          · simpa [sliceTo] using fun h => hline l hmem (List.mem_of_mem_take h)
        rw [Option.map_some, Option.toList_some, hread]
        rcases List.mem_append.mp hmem with hmem | hmem
        · rw [readLine_header hmem]
          exact .inl (List.append_nil _)
        · obtain ⟨⟨n, s⟩, he, rfl⟩ := List.mem_map.mp hmem
          rcases readLine_take (hw _ he).2.2 n j with hnone | ⟨m, hm, hsome⟩
          · rw [hnone]
            exact .inl (List.append_nil _)
          · rw [hsome]
            exact .inr ⟨m, (n, s), he, hm, rfl⟩

end

/-! ## Passes -/

open Manifest (BatchCall found exported)

/-- A pass, over the backlog as it is by then. -/
def step (env : Env) (rotate : ℚ) (drive : Drive) (d : Disk) (c : BatchCall) : Option Disk :=
  some (after (exportBatch env rotate c.inp drive) (found d c))

/-- No name of the backlog was exported to the directory before, and no name and no time
has a newline in it. -/
structure Once (drive : Drive) (d : Disk) (c : BatchCall) : Prop where
  name : ∀ n ∈ backlogPcaps (found d c).fs, n ∉ exported (.pcap drive c.inp.date) d
  line : ∀ n ∈ backlogPcaps (found d c).fs, '\n' ∉ n.toList
  generated : '\n' ∉ c.inp.generated.toList

/-- The file was exported to the directory under that name, and checks. -/
structure Genuine (env : Env) (dest : Dir) (d : Disk) (e : Name × String) : Prop where
  name : e.1.toList ≠ []
  line : '\n' ∉ e.1.toList
  exported : e.1 ∈ exported dest d
  checks : Checks env d.fs dest e

/-- The lines are a part of a manifest whose every entry is true. -/
def PartOfGenuine (env : Env) (dest : Dir) (d : Disk) (lines : List String) : Prop :=
  ∃ (generated : String) (entries : List (Name × String)), '\n' ∉ generated.toList ∧
    Part (manifestHeader generated ++ entries.map manifestLine) lines ∧ ∀ e ∈ entries, Genuine env dest d e

/-- Whatever is in a manifest of the drive is part of a true one. -/
def Backed (env : Env) (drive : Drive) (d : Disk) : Prop :=
  ∀ date lines, d.manifest (.pcap drive date) = some lines → PartOfGenuine env (.pcap drive date) d lines

section
variable {env : Env} {rotate : ℚ} {drive : Drive} {d d' : Disk} {c : BatchCall} {inp : BatchInput}

/-- The loop of a pass leaves alone what is none of its turns'. -/
structure Untouched (dest : Dir) (ns : List Name) (d d' : Disk) : Prop where
  read : ∀ p, (∀ n ∈ ns, ¬ turnPaths dest n p) → d'.fs.read p = d.fs.read p
  calls : d.calls <+: d'.calls
  manifest : d'.manifest = d.manifest

theorem exportLoop_untouched (env : Env) (rotate : ℚ) (inp : BatchInput) (dest : Dir) (ns : List Name)
    (acc : Batch) : Within (Untouched dest ns) (exportLoop env rotate inp dest ns acc) := by
  refine exportLoop_within (fun d => ⟨fun _ _ => rfl, List.prefix_rfl, rfl⟩) (fun d₁ d₂ d₃ h₁ h₂ => ?_)
    (fun n hn d => ?_) acc
  · exact ⟨fun p hp => (h₂.read p hp).trans (h₁.read p hp), h₁.calls.trans h₂.calls,
      h₂.manifest.trans h₁.manifest⟩
  · exact ⟨fun p hp => turnFs_frame (hp n hn), List.prefix_append _ _, rfl⟩

theorem exported_mono {dest : Dir} (h : d.calls <+: d'.calls) : exported dest d ⊆ exported dest d' := by
  intro n hn
  obtain ⟨call, hmem, hcall⟩ := Manifest.mem_exported.mp hn
  exact Manifest.mem_exported.mpr ⟨call, h.subset hmem, hcall⟩

theorem Backed.untouched (h : Backed env drive d) (honce : Once drive d c)
    (hd : Untouched (.pcap drive c.inp.date) (backlogPcaps (found d c).fs) (found d c) d') :
    Backed env drive d' := by
  intro date lines hlines
  rw [hd.manifest] at hlines
  obtain ⟨generated, entries, hgen, hpart, htrue⟩ := h date lines hlines
  refine ⟨generated, entries, hgen, hpart, fun e he => ?_⟩
  obtain ⟨hname, hline, hexported, f, hf, hsha⟩ := htrue e he
  refine ⟨hname, hline, exported_mono hd.calls hexported, f, ?_, hsha⟩
  rw [hd.read, ← hf]
  · exact Manifest.editBacklog_read (by simp)
  · rintro n hn (hp | hp)
    · cases hp
    · cases hp
      exact honce.name e.1 hn hexported

theorem turnReceipt_checks {dest : Dir} {fs : FS} {n : Name} {e : Name × String} (hdest : dest ≠ .backlog)
    (h : turnReceipt env rotate inp dest fs n = some e) :
    e.1 = n ∧ turnCall env rotate inp dest fs n = some ⟨⟨.backlog, n⟩, dest, true⟩ ∧
      Checks env (turnFs env rotate inp dest fs n) dest e := by
  unfold turnReceipt at h
  split at h
  · cases h
  · next hact =>
    split at h
    · next hsuccess =>
      have hne : (⟨.backlog, n⟩ : Path) ≠ ⟨dest, n⟩ := fun hp => hdest (congrArg Path.dir hp).symm
      have hreceipt : ∃ w, (turnOut env inp dest fs n).2.read ⟨dest, n⟩ = some w ∧
          (turnOut env inp dest fs n).1.sha256 = some (env.sha.digest w.bytes) :=
        transferFile_receipt hne hsuccess
      obtain ⟨w, hw, hsha⟩ := hreceipt
      rw [hsha] at h
      cases h
      refine ⟨rfl, by simp [turnCall, hact, hsuccess], w, ?_, rfl⟩
      rw [turnFs, if_neg hact]
      exact hw
    · cases h

theorem Part.of_writeText {fault : WriteFault} {all : List String} {old : Option (List String)}
    {lines : List String} (h : writeText fault all old = some lines) : old = some lines ∨ Part all lines := by
  cases fault with
  | none =>
    cases h
    exact .inr .whole
  | refused e => exact .inl h
  | torn k j e =>
    cases h
    exact .inr (.cut k j)

theorem pcap_ne_nil {fs : FS} {n : Name} (h : n ∈ backlogPcaps fs) : n.toList ≠ [] := by
  have hinfix : ".pcap".toList <:+: n.toList := of_decide_eq_true (mem_backlogPcaps.mp h).2
  intro hnil
  rw [hnil] at hinfix
  exact absurd (List.infix_nil.mp hinfix) (by decide)

theorem Backed.written {acc : Batch} {d₁ : Disk} (honce : Once drive d c)
    (hloop : exportLoop env rotate c.inp (.pcap drive c.inp.date) (backlogPcaps (found d c).fs) {}
      (found d c) = .ok acc d₁) (hb : Backed env drive d₁) :
    Backed env drive (writeReceipts c.inp drive (.pcap drive c.inp.date) acc d₁) := by
  obtain ⟨-, hagree, hcalls, htransferred, -, -, -⟩ := exportLoop_ok (backlogPcaps_nodup _) hloop
  have htrue : ∀ e ∈ acc.transferred, Genuine env (.pcap drive c.inp.date) d₁ e := by
    intro e he
    rw [htransferred] at he
    obtain ⟨n, hn, hreceipt⟩ := List.mem_filterMap.mp he
    obtain ⟨rfl, hcall, f, hf, hsha⟩ := turnReceipt_checks (by simp) hreceipt
    have hmem : (⟨⟨.backlog, e.1⟩, .pcap drive c.inp.date, true⟩ : Call) ∈ d₁.calls := by
      rw [hcalls]
      exact List.mem_append_right _ (List.mem_filterMap.mpr ⟨e.1, hn, hcall⟩)
    refine ⟨pcap_ne_nil hn, honce.line _ hn, Manifest.mem_exported.mpr ⟨_, hmem, rfl, rfl, rfl⟩, f, ?_, hsha⟩
    rw [hagree e.1 hn _ (.inr rfl)]
    exact hf
  have hsame : ∀ dest e, Genuine env dest d₁ e →
      Genuine env dest (writeReceipts c.inp drive (.pcap drive c.inp.date) acc d₁) e := by
    rintro dest e ⟨hname, hline, hexported, hchecks⟩
    exact ⟨hname, hline, by simpa [exported] using hexported, by simpa using hchecks⟩
  intro date lines hlines
  have hkept : d₁.manifest (.pcap drive date) = some lines → PartOfGenuine env (.pcap drive date)
      (writeReceipts c.inp drive (.pcap drive c.inp.date) acc d₁) lines := by
    intro hold
    obtain ⟨generated, entries, hgen, hpart, hentries⟩ := hb date lines hold
    exact ⟨generated, entries, hgen, hpart, fun e he => hsame _ e (hentries e he)⟩
  rw [writeReceipts_manifest] at hlines
  split at hlines
  · exact hkept hlines
  · rw [writeManifest] at hlines
    by_cases hdate : date = c.inp.date
    · subst hdate
      simp only [Function.update_self] at hlines
      rcases Part.of_writeText hlines with hold | hpart
      · exact hkept hold
      · refine ⟨_, _, honce.generated, hpart, fun e he => hsame _ e (htrue e ?_)⟩
        exact (List.mem_insertionSort _).mp he
    · have hdir : Dir.pcap drive date ≠ .pcap drive c.inp.date := fun h => hdate (Dir.pcap.inj h).2
      simp only [Function.update_of_ne hdir] at hlines
      exact hkept hlines

theorem step_backed (h : Backed env drive d) (honce : Once drive d c)
    (hstep : step env rotate drive d c = some d') : Backed env drive d' := by
  cases hstep
  have huntouched := exportLoop_untouched env rotate c.inp (.pcap drive c.inp.date)
    (backlogPcaps (found d c).fs) {} (found d c)
  cases hpass : exportBatch env rotate c.inp drive (found d c) with
  | ok counts d' =>
    obtain ⟨acc, d₁, hloop, rfl, -⟩ := exportBatch_ok hpass
    rw [after_ok hpass]
    rw [after_ok hloop] at huntouched
    exact Backed.written honce hloop (h.untouched honce huntouched)
  | error e d' =>
    rw [after_error hpass]
    rcases exportBatch_error hpass with rfl | hloop
    · exact h.untouched honce ⟨fun _ _ => rfl, List.prefix_rfl, rfl⟩
    · rw [after_error hloop] at huntouched
      exact h.untouched honce huntouched

end

/-- **What `MANIFEST.txt` says is so.** Passes to one drive that has no manifest yet, on any
dates, with any faults in the transfers and in the writes of the manifest, in which no
pass finds a name in the backlog that was exported to its directory before, and no name
and no time has a newline in it. After each of them, of the entries that read back from
the manifest of a dated directory every one names a file of that directory with the
digest of its content, but perhaps for one at the end of the text whose name was cut. -/
theorem manifest_checks (env : Env) (rotate : ℚ) (drive : Drive) (d : Disk)
    (hhex : ∀ b, IsDigest (env.sha.digest b)) (hnew : ∀ date, d.manifest (.pcap drive date) = none)
    (passes : List BatchCall) (honce : Runs.Meets (step env rotate drive) (Once drive) d passes) :
    Runs.Always (step env rotate drive) (fun d => ∀ date lines, d.manifest (.pcap drive date) = some lines →
      ∃ es, (∀ e ∈ es, Checks env d.fs (.pcap drive date) e) ∧ (readManifest lines = es ∨
        ∃ m n sha, readManifest lines = es ++ [(m, sha)] ∧ m.toList <+: n.toList ∧
          Checks env d.fs (.pcap drive date) (n, sha))) d passes := by
  have hstart : Backed env drive d := by
    intro date lines hlines
    rw [hnew] at hlines
    cases hlines
  refine (Runs.always_of_meets (fun _ _ _ h hc hs => step_backed h hc hs) hstart honce).mono
    fun d hd date lines hlines => ?_
  obtain ⟨generated, entries, hgen, hpart, htrue⟩ := hd date lines hlines
  have hw : Writable entries := by
    intro e he
    obtain ⟨hname, hline, -, f, -, hsha⟩ := htrue e he
    exact ⟨hname, hline, hsha ▸ hhex f.bytes⟩
  obtain ⟨es, hsub, hread⟩ := readManifest_part hgen hw hpart
  refine ⟨es, fun e he => (htrue e (hsub he)).checks, hread.imp_right ?_⟩
  rintro ⟨m, e, he, hm, hcut⟩
  exact ⟨m, e.1, e.2, hcut, hm, (htrue e he).checks⟩

/-- A digest that is one: each byte by its two digits. -/
def benchDigest : Hash.Incremental where
  State := Bytes
  init := []
  update := fun h b => h ++ b
  hexdigest := fun h => String.ofList ('0' :: h.flatMap fun x =>
    [Nat.digitChar (x.toNat / 16), Nat.digitChar (x.toNat % 16)])
  update_nil := List.append_nil
  update_append := List.append_assoc

theorem benchDigest_hex (b : Bytes) : IsDigest (benchDigest.digest b) := by
  have hdigit : ∀ d < 16, isHex (Nat.digitChar d) = true := by decide
  refine ⟨by simp [benchDigest, Hash.Incremental.digest], fun c hc => ?_⟩
  simp only [benchDigest, Hash.Incremental.digest, List.nil_append, String.toList_ofList, List.mem_cons,
    List.mem_flatMap, List.not_mem_nil, or_false] at hc
  rcases hc with rfl | ⟨x, -, rfl | rfl⟩
  · rfl
  · exact hdigit _ (by have := x.toNat_lt; omega)
  · exact hdigit _ (Nat.mod_lt _ (by decide))

def benchHexEnv : Env := { benchEnv with sha := benchDigest }

/-- Two files, and the write of the manifest stops five characters into the name of
the second. -/
def benchPasses : List BatchCall :=
  [{ edits := [("a.pcap", some ⟨[0x61], 0⟩), ("b.pcap.gz", some ⟨[0x62], 0⟩)]
     inp := { date := "20260101", turn := fun _ => { now := 100 }, manifest := .torn 5 10 "[Errno 28]" } }]

theorem benchPasses_once :
    Runs.Meets (step benchHexEnv 20 "SEER_EXT") (Once "SEER_EXT") { fs := .empty } benchPasses := by
  refine fun d₁ _ => ⟨⟨fun n _ => ?_, ?_, by decide⟩, trivial⟩
  · simp [exported]
  · decide +kernel

theorem manifest_checks_torn :
    ∃ d, Runs.run (step benchHexEnv 20 "SEER_EXT") { fs := .empty } benchPasses = some d ∧
      (d.manifest (.pcap "SEER_EXT" "20260101")).map readManifest =
        some [("a.pcap", "061"), ("b.pca", "062")] ∧
      Checks benchHexEnv d.fs (.pcap "SEER_EXT" "20260101") ("a.pcap", "061") := by
  have hran : (Runs.run (step benchHexEnv 20 "SEER_EXT") { fs := .empty } benchPasses).map
      (fun d => (d.manifest (.pcap "SEER_EXT" "20260101")).map readManifest) =
      some (some [("a.pcap", "061"), ("b.pca", "062")]) := by
    decide +kernel
  obtain ⟨d, hrun, hread⟩ := Option.map_eq_some_iff.mp hran
  obtain ⟨lines, hlines, hback⟩ := Option.map_eq_some_iff.mp hread
  obtain ⟨es, hes, hcut⟩ := (manifest_checks benchHexEnv 20 "SEER_EXT" { fs := .empty } benchDigest_hex
    (fun _ => rfl) benchPasses benchPasses_once).last hrun "20260101" lines hlines
  rw [hback] at hcut
  refine ⟨d, hrun, hread, hes ("a.pcap", "061") ?_⟩
  rcases hcut with hall | ⟨m, n, sha, hall, -, -⟩
  · simp [← hall]
  · have hsplit : [("a.pcap", "061")] ++ [("b.pca", "062")] = es ++ [(m, sha)] := hall
    simp [← (List.append_inj' hsplit rfl).1]

end SeerSensor.ManifestText
