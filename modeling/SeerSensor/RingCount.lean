/-
How many PCAPs the ring holds, by the mover, the console and the installation
check.

The mover counts the regular files `*.pcap`, hidden ones included; the console the
visible entries `*.pcap*` of any kind; the check the lines that `ls` prints for
`*.pcap*`, which for a directory are its contents, a header and a blank line. On
freshly captured files the three agree. A rotated or compressed file, or a
directory, is counted by two of them and never moved: the check then sees enough
files where the mover sees too few, and creates none.

The mover takes the ring's path as it is. To the console it is part of a pattern,
and to the check it stands outside of quotes: where it has a blank or a pattern
character in it, they look somewhere else.
-/
import Mathlib.Algebra.Order.Ring.Nat
import SeerSensor.ExportBatch
import SeerSensor.Lib.PyStr
import SeerSensor.Lib.ShellWords
import SeerSensor.RingBound

namespace SeerSensor.RingCount

open MoveOldest (ringPcaps globPcap)
open ShellWords (isBare)

/-- The ring directory: its regular files, and its directories with what is in them. -/
structure Ring where
  fs : FS
  dirs : List (Name × List Name)
  distinct : (dirs.map (·.1)).Nodup
  apart : ∀ n ∈ dirs.map (·.1), n ∉ fs.names .ring

/-- Everything in the directory, files and directories. -/
def Ring.names (r : Ring) : List Name := r.fs.names .ring ++ r.dirs.map (·.1)

/-- The absolute path of the ring, and what is found by those who do not take it as it is. -/
structure RingPath where
  text : String := "/var/seer/pcap_ring"
  /-- The lines `ls` prints where the shell makes other words of the path. -/
  otherLines : FS → Nat := fun _ => 0
  /-- The entries `glob.glob` finds where the path is a pattern. -/
  otherShown : FS → Nat := fun _ => 0

/-! ## Three counts -/

/-- The count that `move_oldest.main` compares with the threshold. -/
def moverCount (r : Ring) : Nat := (ringPcaps r.fs).length

/-- The shell's globs and `ls` pass over it. -/
def hidden (n : Name) : Bool := n.toList.head? = some '.'

/-- `*.pcap*` in the shell and in `glob.glob`, which match no hidden name. -/
def globVisible (n : Name) : Bool := globPcapAny n && !hidden n

/-- `glob.has_magic`. -/
def hasMagic (s : String) : Bool := s.toList.any fun c => decide (c ∈ ['*', '?', '['])

/-- The console's `count_pcaps`. -/
def countPcaps (path : RingPath) (r : Ring) : Nat :=
  if hasMagic path.text then path.otherShown r.fs else (r.names.filter globVisible).length

/-- What `ls` prints for a directory. -/
def lsContents (d : Name × List Name) : List Char := (PyStr.unlines (d.2.filter fun n => !hidden n)).toList

/-- And with its name, where it is not alone. -/
def lsBlock (ringDir : String) (d : Name × List Name) : List Char :=
  (PyStr.unlines [ringDir ++ "/" ++ d.1 ++ ":"]).toList ++ lsContents d

/-- The directories, after the files or with none before them. -/
def lsDirs (ringDir : String) (files : List Name) (dirs : List (Name × List Name)) : List Char :=
  match files, dirs with
  | [], [] => []
  | [], [d] => lsContents d
  | [], d :: ds => lsBlock ringDir d ++ ds.flatMap fun d => '\n' :: lsBlock ringDir d
  | _, ds => ds.flatMap fun d => '\n' :: lsBlock ringDir d

/-- `ls -1` of the paths: the files, and then each directory. -/
def ls (ringDir : String) (files : List Name) (dirs : List (Name × List Name)) : List Char :=
  (PyStr.unlines (files.map fun n => ringDir ++ "/" ++ n)).toList ++ lsDirs ringDir files dirs

/-- `ls -1 ${ring_dir}/*.pcap* 2>/dev/null | wc -l`, of the ring's files and directories. -/
def listed (path : RingPath) (fs : FS) (dirs : List (Name × List Name)) : Nat :=
  if isBare path.text then
    (ls path.text ((fs.names .ring).filter globVisible) (dirs.filter fun d => globVisible d.1)).count '\n'
  else
    path.otherLines fs

/-! ## The check's dummies -/

/-- `fn` of the loop that tops up the ring. -/
def dummyName (secs i : Nat) : Name := "SEER-DUMMY-" ++ toString secs ++ "-" ++ toString i ++ ".pcap"

/-- The dummies' names, `clock i` being the seconds at the `i`-th. -/
def dummyNames (clock : Nat → Nat) (need : Nat) : List Name :=
  (List.range need).map fun i => dummyName (clock (i + 1)) (i + 1)

/-- `dd` and `touch`: a file of one byte, unless a directory has the name. -/
def create (f : File) (r : Ring) (n : Name) : Ring :=
  if h : n ∈ r.dirs.map (·.1) then r
  else
    { fs := r.fs.write ⟨.ring, n⟩ f
      dirs := r.dirs
      distinct := r.distinct
      apart := fun m hm hmem => by
        obtain ⟨g, hg⟩ := FS.mem_names.mp hmem
        have hne : m ≠ n := fun heq => h (heq ▸ hm)
        rw [FS.read_write_ne (by simpa using hne)] at hg
        exact r.apart m hm (FS.mem_names.mpr ⟨g, hg⟩) }

/-- What the check tops the ring up with. -/
structure Verifier where
  path : RingPath := {}
  /-- `buffer_threshold`. -/
  thresh : Nat
  /-- `date +%s` at each dummy, and the time `touch` gives it. -/
  clock : Nat → Nat
  touched : Time

/-- `count_before`. -/
def Verifier.countBefore (v : Verifier) (r : Ring) : Nat := listed v.path r.fs r.dirs

/-- `need`, 0 where the count reaches the threshold. -/
def Verifier.need (v : Verifier) (r : Ring) : Nat := v.thresh - v.countBefore r

/-- The top-up of the ring to the threshold; the path of a dummy is quoted. -/
def Verifier.topUp (v : Verifier) (r : Ring) : Ring :=
  if v.countBefore r < v.thresh then (dummyNames v.clock (v.need r)).foldl (create ⟨[0], v.touched⟩) r else r

/-- After the top-up the mover finds the threshold reached, and the console shows what
the mover counts. -/
structure Agree (v : Verifier) (r : Ring) : Prop where
  topUp : v.thresh ≤ moverCount (v.topUp r)
  console : countPcaps v.path r = moverCount r

/-! ## Creating -/

section
variable {r : Ring} {f : File} {n m : Name}

theorem moverCount_eq (r : Ring) : moverCount r = ((r.fs.names .ring).filter globPcap).length :=
  MoveOldest.length_ringPcaps r.fs

theorem mem_names_create : m ∈ (create f r n).names ↔ m ∈ r.names ∨ m = n := by
  unfold create
  split_ifs with hdir
  · refine ⟨.inl, fun h => h.elim id ?_⟩
    rintro rfl
    exact List.mem_append.mpr (.inr hdir)
  · simp only [Ring.names, List.mem_append, FS.mem_names]
    by_cases hm : m = n
    · subst hm
      simp
    · rw [FS.read_write_ne (by simpa using hm)]
      simp [hm]

/-- A new name is counted by the mover, a taken one was counted or is a directory. -/
theorem moverCount_create (hn : globPcap n = true) :
    moverCount (create f r n) = moverCount r + if n ∈ r.names then 0 else 1 := by
  unfold create
  split_ifs with hdir hmem hmem
  · rfl
  · exact absurd (List.mem_append.mpr (.inr hdir)) hmem
  · have hfile : n ∈ r.fs.names .ring := (List.mem_append.mp hmem).resolve_right hdir
    obtain ⟨g, hg⟩ := FS.mem_names.mp hfile
    have hperm := (RingBound.names_overwrite (g := f) hg).filter globPcap
    rw [moverCount_eq, moverCount_eq]
    exact hperm.length_eq
  · have hfile : n ∉ r.fs.names .ring := fun h => hmem (List.mem_append.mpr (.inl h))
    have hperm := (RingBound.names_create (g := f) hfile).filter globPcap
    rw [List.filter_cons_of_pos hn] at hperm
    rw [moverCount_eq, moverCount_eq]
    exact hperm.length_eq

theorem moverCount_foldl {ns : List Name} (hns : ns.Nodup) (hglob : ∀ n ∈ ns, globPcap n = true) (r : Ring) :
    moverCount (ns.foldl (create f) r) = moverCount r + (ns.filter fun n => n ∉ r.names).length := by
  induction ns generalizing r with
  | nil => rfl
  | cons n ns ih =>
    obtain ⟨hn, hns⟩ := List.nodup_cons.mp hns
    obtain ⟨hg, hglob⟩ := List.forall_mem_cons.mp hglob
    have hsame : ns.filter (fun m => m ∉ (create f r n).names) = ns.filter fun m => m ∉ r.names := by
      refine List.filter_congr fun m hm => ?_
      have hne : m ≠ n := fun heq => hn (heq ▸ hm)
      simp [mem_names_create, hne]
    rw [List.foldl_cons, ih hns hglob, moverCount_create hg, hsame, List.filter_cons]
    by_cases hmem : n ∈ r.names
    · simp [hmem]
    · simp only [hmem, if_false, not_false_eq_true, decide_true, if_true, List.length_cons]
      omega

end

/-! ## The dummies' names -/

theorem dash_not_mem (n : Nat) : '-' ∉ (toString n).toList := fun h =>
  absurd (PyStr.isDigit_of_mem_toString h) (by decide)

theorem dummyName_inj {a b i j : Nat} (h : dummyName a i = dummyName b j) : i = j := by
  have hlist := congrArg String.toList h
  simp only [dummyName, String.toList_append, List.append_assoc, List.append_cancel_left_eq] at hlist
  have hdash : "-".toList = ['-'] := rfl
  rw [hdash, List.singleton_append, List.singleton_append] at hlist
  have hrest : '-' ∉ (toString i).toList ++ ".pcap".toList := by
    rw [List.mem_append, not_or]
    exact ⟨dash_not_mem i, by decide⟩
  obtain ⟨-, -, hnum⟩ := (List.append_cons_inj_of_notMem (dash_not_mem a) hrest).mp hlist
  have hdigits := List.append_cancel_right hnum
  calc
    i = Nat.ofDigitChars 10 (toString i).toList 0 := (PyStr.ofDigitChars_toString i).symm
    _ = Nat.ofDigitChars 10 (toString j).toList 0 := by rw [hdigits]
    _ = j := PyStr.ofDigitChars_toString j

theorem dummyNames_nodup (clock : Nat → Nat) (need : Nat) : (dummyNames clock need).Nodup := by
  refine List.Nodup.map_on (fun i _ j _ h => ?_) List.nodup_range
  have hnum := dummyName_inj h
  omega

theorem globPcap_dummyName (secs i : Nat) : globPcap (dummyName secs i) = true := by
  unfold globPcap dummyName
  rw [List.isSuffixOf_iff_suffix, String.toList_append]
  exact List.suffix_append _ _

/-- How many of the dummies' names are taken. -/
def taken (v : Verifier) (r : Ring) : Nat := ((dummyNames v.clock (v.need r)).filter fun n => n ∈ r.names).length

theorem moverCount_topUp (v : Verifier) (r : Ring) : v.thresh ≤ moverCount (v.topUp r) ↔
    if v.countBefore r < v.thresh then v.countBefore r + taken v r ≤ moverCount r
    else v.thresh ≤ moverCount r := by
  unfold Verifier.topUp taken
  split_ifs with hfew
  · have hneed : v.need r = v.thresh - v.countBefore r := rfl
    have hglob : ∀ n ∈ dummyNames v.clock (v.need r), globPcap n = true := by
      intro n hn
      obtain ⟨i, -, rfl⟩ := List.mem_map.mp hn
      exact globPcap_dummyName _ _
    have hsplit := List.length_eq_length_filter_add (l := dummyNames v.clock (v.need r))
      fun n => decide (n ∈ r.names)
    have hlen : (dummyNames v.clock (v.need r)).length = v.need r := by simp [dummyNames]
    have hfresh : (dummyNames v.clock (v.need r)).filter (fun n => decide (n ∉ r.names)) =
        (dummyNames v.clock (v.need r)).filter fun n => !decide (n ∈ r.names) := by
      simp only [decide_not]
    rw [moverCount_foldl (dummyNames_nodup v.clock (v.need r)) hglob, hfresh]
    omega
  · rfl

/-! ## What each count has and the mover's has not -/

theorem globPcapAny_of_globPcap {n : Name} (h : globPcap n = true) : globPcapAny n = true := by
  unfold globPcap at h
  unfold globPcapAny
  rw [List.isSuffixOf_iff_suffix] at h
  exact decide_eq_true h.isInfix

/-- Two counts of a list differ by what each has and the other has not. -/
theorem length_filter_split (p q : Name → Bool) (l : List Name) :
    (l.filter p).length + (l.filter fun n => q n && !p n).length =
      (l.filter q).length + (l.filter fun n => p n && !q n).length := by
  induction l with
  | nil => rfl
  | cons n l ih =>
    cases hp : p n <;> cases hq : q n <;> simp [hp, hq] <;> omega

/-- The mover's files that are hidden from the other two. -/
def hiddenPcaps (r : Ring) : Nat := ((r.fs.names .ring).filter fun n => globPcap n && hidden n).length

/-- What the console counts and the mover does not: visible directories and files with
another ending, or whatever else a pattern finds. -/
def neverMoved (path : RingPath) (r : Ring) : Nat :=
  if hasMagic path.text then path.otherShown r.fs
  else ((r.fs.names .ring).filter fun n => globVisible n && !globPcap n).length +
    ((r.dirs.map (·.1)).filter globVisible).length

/-- What the mover counts and the console does not. -/
def notShown (path : RingPath) (r : Ring) : Nat := if hasMagic path.text then moverCount r else hiddenPcaps r

/-- The lines `ls` prints beside the one line of each visible file `*.pcap`: those of files
with another ending, of line breaks in names, of directories and what is in them, or all
lines where the path has become other words. -/
def foreignLines (path : RingPath) (r : Ring) : Nat :=
  if isBare path.text then
    (((r.fs.names .ring).filter globVisible).map fun n =>
      n.toList.count '\n' + if globPcap n then 0 else 1).sum +
    (lsDirs path.text ((r.fs.names .ring).filter globVisible)
      (r.dirs.filter fun d => globVisible d.1)).count '\n'
  else
    path.otherLines r.fs

/-- The mover's files that `ls` prints no line for. -/
def unlisted (path : RingPath) (r : Ring) : Nat := if isBare path.text then hiddenPcaps r else moverCount r

theorem moverCount_split (r : Ring) :
    ((r.fs.names .ring).filter fun n => globVisible n && globPcap n).length + hiddenPcaps r = moverCount r := by
  rw [moverCount_eq, hiddenPcaps]
  induction r.fs.names .ring with
  | nil => rfl
  | cons n l ih =>
    have hvisible : globPcap n = true → globVisible n = !hidden n := fun hn => by
      simp [globVisible, globPcapAny_of_globPcap hn]
    cases hp : globPcap n with
    | false => simpa [hp] using ih
    | true =>
      cases hh : hidden n <;> simp [hp, hh, hvisible hp] at ih ⊢ <;> omega

theorem countPcaps_add (path : RingPath) (r : Ring) :
    countPcaps path r + notShown path r = moverCount r + neverMoved path r := by
  unfold countPcaps notShown neverMoved
  split_ifs
  · omega
  · have hsplit := length_filter_split globPcap globVisible (r.fs.names .ring)
    have hmover := moverCount_split r
    have hhidden : ((r.fs.names .ring).filter fun n => globPcap n && !globVisible n).length = hiddenPcaps r := by
      refine congrArg List.length (List.filter_congr fun n _ => ?_)
      cases hg : globPcap n with
      | false => rfl
      | true => simp [globVisible, globPcapAny_of_globPcap hg]
    rw [moverCount_eq] at hmover ⊢
    simp only [Ring.names, List.filter_append, List.length_append]
    omega

theorem count_unlines (ls : List String) :
    (PyStr.unlines ls).toList.count '\n' = (ls.map fun l => l.toList.count '\n' + 1).sum := by
  unfold PyStr.unlines
  rw [String.toList_ofList]
  induction ls with
  | nil => rfl
  | cons l ls ih =>
    rw [List.flatMap_cons, List.count_append, List.count_append, ih, List.map_cons, List.sum_cons]
    simp

theorem count_path {ringDir : String} (hdir : isBare ringDir = true) (n : Name) :
    (ringDir ++ "/" ++ n).toList.count '\n' = n.toList.count '\n' := by
  have hslash : "/".toList.count '\n' = 0 := rfl
  rw [String.toList_append, String.toList_append, List.count_append, List.count_append, hslash,
    List.count_eq_zero_of_not_mem (ShellWords.newline_not_mem_of_isBare hdir)]
  omega

theorem count_ls {ringDir : String} (hdir : isBare ringDir = true) (files : List Name)
    (dirs : List (Name × List Name)) :
    (ls ringDir files dirs).count '\n' =
      (files.map fun n => n.toList.count '\n' + 1).sum + (lsDirs ringDir files dirs).count '\n' := by
  rw [ls, List.count_append, count_unlines, List.map_map]
  simp only [Function.comp_def, count_path hdir]

/-- Setting one line apart for each file of a kind. -/
theorem sum_lines_split (p : Name → Bool) (ns : List Name) :
    (ns.map fun n => n.toList.count '\n' + 1).sum =
      (ns.filter p).length + (ns.map fun n => n.toList.count '\n' + if p n then 0 else 1).sum := by
  induction ns with
  | nil => rfl
  | cons n ns ih =>
    rw [List.map_cons, List.sum_cons, ih, List.map_cons, List.sum_cons, List.filter_cons]
    cases p n
    · simp only [Bool.false_eq_true, if_false]
      omega
    · simp only [if_true, List.length_cons]
      omega

theorem listed_add (path : RingPath) (r : Ring) :
    listed path r.fs r.dirs + unlisted path r = moverCount r + foreignLines path r := by
  unfold listed unlisted foreignLines
  split_ifs with hbare
  · have hmover := moverCount_split r
    rw [← List.filter_filter] at hmover
    have hpcaps : (((r.fs.names .ring).filter globPcap).filter globVisible).length =
        (((r.fs.names .ring).filter globVisible).filter globPcap).length := by
      rw [List.filter_comm]
    rw [count_ls hbare, sum_lines_split globPcap]
    omega
  · omega

/-- **When the three count the same ring.** For every content of the ring directory, every
path, threshold and clock. The mover is sure to find the threshold reached exactly when,
with fewer lines than that, the foreign lines and the dummies' names already taken are
balanced by files that `ls` has no line for; or, with enough lines, the foreign ones
exceed those files by no more than the lines exceed the threshold. The console shows what
the mover counts exactly when the entries that are shown and never moved are as many as
those that are moved and not shown. -/
theorem ring_counts_agree_iff (v : Verifier) (r : Ring) : Agree v r ↔
    (if v.countBefore r < v.thresh then taken v r + foreignLines v.path r ≤ unlisted v.path r
      else v.thresh + foreignLines v.path r ≤ v.countBefore r + unlisted v.path r) ∧
    neverMoved v.path r = notShown v.path r := by
  have hconsole : countPcaps v.path r = moverCount r ↔ neverMoved v.path r = notShown v.path r := by
    have hadd := countPcaps_add v.path r
    omega
  have hlines : v.countBefore r + unlisted v.path r = moverCount r + foreignLines v.path r := listed_add v.path r
  have htopUp : v.thresh ≤ moverCount (v.topUp r) ↔
      if v.countBefore r < v.thresh then taken v r + foreignLines v.path r ≤ unlisted v.path r
      else v.thresh + foreignLines v.path r ≤ v.countBefore r + unlisted v.path r := by
    rw [moverCount_topUp]
    split_ifs <;> omega
  rw [← htopUp, ← hconsole]
  exact ⟨fun h => ⟨h.topUp, h.console⟩, fun h => ⟨h.1, h.2⟩⟩

/-! ## Freshly captured files -/

/-- Visible files `*.pcap` with names of one line, and no directories, under a path that
everyone takes as it is. -/
structure Captured (path : RingPath) (r : Ring) : Prop where
  noDirs : r.dirs = []
  named : ∀ n ∈ r.fs.names .ring, globPcap n = true ∧ hidden n = false ∧ '\n' ∉ n.toList
  bare : isBare path.text = true

theorem hasMagic_of_isBare {s : String} (h : isBare s = true) : hasMagic s = false := by
  rw [hasMagic, List.any_eq_false]
  intro c hc
  have hbare := List.all_eq_true.mp h c hc
  simp only [List.mem_cons, List.not_mem_nil, or_false, decide_eq_true_eq, not_or] at hbare ⊢
  exact ⟨hbare.2.2.2.1, hbare.2.2.2.2.1, hbare.2.2.2.2.2.1⟩

/-- On freshly captured files the three agree, if the names of the dummies are new. -/
theorem Captured.agree {v : Verifier} {r : Ring} (h : Captured v.path r)
    (hfree : ∀ n ∈ dummyNames v.clock (v.need r), n ∉ r.names) : Agree v r := by
  have htaken : taken v r = 0 := by
    rw [taken, List.length_eq_zero_iff, List.filter_eq_nil_iff]
    intro n hn
    simpa using hfree n hn
  have hhidden : hiddenPcaps r = 0 := by
    rw [hiddenPcaps, List.length_eq_zero_iff, List.filter_eq_nil_iff]
    intro n hn
    simp [(h.named n hn).2.1]
  have hforeign : foreignLines v.path r = 0 := by
    rw [foreignLines, if_pos h.bare, h.noDirs, List.filter_nil]
    have hnone : (((r.fs.names .ring).filter globVisible).map fun n =>
        n.toList.count '\n' + if globPcap n then 0 else 1).sum = 0 := by
      rw [List.sum_eq_zero_iff_forall_eq_nat]
      intro k hk
      obtain ⟨n, hn, rfl⟩ := List.mem_map.mp hk
      obtain ⟨hg, -, hline⟩ := h.named n (List.mem_of_mem_filter hn)
      rw [hg, List.count_eq_zero_of_not_mem hline]
      rfl
    rw [hnone]
    cases (r.fs.names .ring).filter globVisible <;> rfl
  have hmoved : neverMoved v.path r = 0 := by
    rw [neverMoved, hasMagic_of_isBare h.bare]
    simp only [h.noDirs, List.map_nil, List.filter_nil, List.length_nil, Nat.add_zero, Bool.false_eq_true,
      if_false, List.length_eq_zero_iff, List.filter_eq_nil_iff]
    intro n hn
    simp [(h.named n hn).1]
  have hadd := countPcaps_add v.path r
  have hlines : v.countBefore r + unlisted v.path r = moverCount r + foreignLines v.path r := listed_add v.path r
  rw [notShown, hasMagic_of_isBare h.bare, if_neg (by simp)] at hadd
  rw [unlisted, if_pos h.bare] at hlines
  refine ⟨?_, by omega⟩
  rw [moverCount_topUp]
  split_ifs <;> omega

/-- Two files that tcpdump rotated by size. -/
def benchRotated : Ring where
  fs := (FS.empty.write ⟨.ring, "a.pcap1"⟩ ⟨[0], 0⟩).write ⟨.ring, "b.pcap1"⟩ ⟨[0], 0⟩
  dirs := []
  distinct := by simp
  apart := by simp

def benchVerifier : Verifier where
  thresh := 2
  clock := fun _ => 1767225600
  touched := 0

/-- The check sees the threshold reached, the console shows two files, and the mover
counts none. -/
theorem ring_counts_differ :
    benchVerifier.countBefore benchRotated = 2 ∧ countPcaps benchVerifier.path benchRotated = 2 ∧
    moverCount (benchVerifier.topUp benchRotated) = 0 ∧ ¬ Agree benchVerifier benchRotated := by
  have hmover : moverCount (benchVerifier.topUp benchRotated) = 0 := by decide +kernel
  refine ⟨by decide +kernel, by decide +kernel, hmover, fun h => ?_⟩
  have htop := h.topUp
  rw [hmover] at htop
  exact absurd htop (by decide)

end SeerSensor.RingCount
