/-
What `seer-verify-install.sh` says of the mover in the end.

The script does not ask the mover. It counts the lines of `ls` in the ring before and
after, and looks for another newest name in the queue and in the backlog. By the
second count capture runs again: one file it has opened by then makes up for the one
that was moved, and a file that went to the drive is then seen nowhere. And a copy to
the backlog that broke off half way is a new newest name like any other.
-/
import Mathlib.Data.List.TakeWhile
import SeerSensor.InstallCheck

namespace SeerSensor.InstallCheck

open MoveOldest RingCount Raise

/-- The order of `ls -t`: the newest first, and by name where the times are the same. -/
def newerFirst (a b : Name × File) : Prop := b.2.mtime < a.2.mtime ∨ b.2.mtime = a.2.mtime ∧ a.1 ≤ b.1

instance : DecidableRel newerFirst := fun a b =>
  inferInstanceAs (Decidable (b.2.mtime < a.2.mtime ∨ b.2.mtime = a.2.mtime ∧ a.1 ≤ b.1))

/-- The files that `ls` shows of the backlog. -/
def backlogShown (fs : FS) : List (Name × File) :=
  ((fs.names .backlog).filter fun n => !hidden n).filterMap fun n =>
    (fs.read ⟨.backlog, n⟩).map fun f => (n, f)

/-- `head -n1`. -/
def firstLine (s : String) : String := String.ofList (s.toList.takeWhile (· ≠ '\n'))

/-- The first line of `ls -1t` of the backlog. -/
def latest (fs : FS) : String :=
  (((backlogShown fs).insertionSort newerFirst).head?.map fun p => firstLine p.1).getD ""

/-- What else the check meets. -/
structure Watch where
  /-- The newest name in `dest_dir`, before and after. -/
  queueBefore : String := ""
  queueAfter : String := ""
  /-- The first line of `ls -1t` where the shell makes other words of the backlog's path. -/
  otherBefore : String := ""
  otherAfter : String := ""
  /-- What the exporter takes from the backlog meanwhile. -/
  exported : List Name := []
  captureActive : Bool := true
  zeekActive : Bool := true
  /-- `zc_after`. -/
  zeekLogs : Nat := 0

namespace Check

/-- The files when the check looks again. -/
def seen (c : Check) (w : Watch) (env : Env) (r : Ring) : FS :=
  w.exported.foldl (fun fs n => fs.remove ⟨.backlog, n⟩) (captureAll (c.moved env r) c.captured)

/-- `ls -1t ${backlog_dir} 2>/dev/null | head -n1`. -/
def latestBack (c : Check) (other : String) (fs : FS) : String :=
  if ShellWords.isBare c.backlogDir then latest fs else other

/-- `moved`. The top-up makes no directories. -/
def moverMoved (c : Check) (w : Watch) (env : Env) (r : Ring) : Bool :=
  let backBefore := c.latestBack w.otherBefore (c.toppedUp r)
  let backAfter := c.latestBack w.otherAfter (c.seen w env r)
  if listed c.path (c.seen w env r) r.dirs < listed c.path (c.toppedUp r) r.dirs then true
  else if w.queueAfter ≠ "" ∧ w.queueAfter ≠ w.queueBefore then true
  else if backAfter ≠ "" ∧ backAfter ≠ backBefore then true
  else false

/-- `logs_ok`: that there are no logs is only a warning. -/
def logsOk (w : Watch) : Bool := if 0 < w.zeekLogs then true else true

/-- The status the check exits with. -/
def exitStatus (c : Check) (w : Watch) (env : Env) (r : Ring) : Nat :=
  if c.moverMoved w env r && w.captureActive && w.zeekActive && logsOk w then 0 else 3

end Check

/-- `ls -t` shows the file first. -/
def IsLatest (fs : FS) (n : Name) : Prop :=
  ∃ f, fs.read ⟨.backlog, n⟩ = some f ∧ hidden n = false ∧
    ∀ m g, fs.read ⟨.backlog, m⟩ = some g → hidden m = false → newerFirst (n, f) (m, g)

/-! ## The newest name -/

section
variable {fs fs' : FS} {n m : Name} {f g : File}

theorem mem_backlogShown : (n, f) ∈ backlogShown fs ↔ fs.read ⟨.backlog, n⟩ = some f ∧ hidden n = false := by
  simp only [backlogShown, List.mem_filterMap, List.mem_filter, Option.map_eq_some_iff, Prod.mk.injEq,
    FS.mem_names, Bool.not_eq_true']
  constructor
  · rintro ⟨m, ⟨-, hm⟩, g, hg, rfl, rfl⟩
    exact ⟨hg, hm⟩
  · rintro ⟨hf, hn⟩
    exact ⟨n, ⟨⟨f, hf⟩, hn⟩, f, hf, rfl, rfl⟩

instance : Std.Total newerFirst := ⟨fun a b => by
  unfold newerFirst
  rcases lt_trichotomy a.2.mtime b.2.mtime with h | h | h
  · exact .inr (.inl h)
  · exact (le_total a.1 b.1).imp (fun hn => .inr ⟨h.symm, hn⟩) fun hn => .inr ⟨h, hn⟩
  · exact .inl (.inl h)⟩

instance : IsTrans (Name × File) newerFirst := ⟨fun a b c hab hbc => by
  unfold newerFirst at *
  rcases hab with hab | ⟨hab, hn⟩ <;> rcases hbc with hbc | ⟨hbc, hm⟩
  · exact .inl (hbc.trans hab)
  · exact .inl (hbc ▸ hab)
  · exact .inl (hab ▸ hbc)
  · exact .inr ⟨hbc.trans hab, hn.trans hm⟩⟩

theorem newerFirst_antisymm (h : newerFirst (n, f) (m, g)) (h' : newerFirst (m, g) (n, f)) : n = m := by
  unfold newerFirst at h h'
  rcases h with h | ⟨h, hn⟩ <;> rcases h' with h' | ⟨h', hm⟩
  · exact absurd h (lt_asymm h')
  · exact absurd h' (ne_of_lt h).symm
  · exact absurd h (ne_of_lt h').symm
  · exact le_antisymm hn hm

theorem head?_newest : ((backlogShown fs).insertionSort newerFirst).head?.map (·.1) = some n ↔ IsLatest fs n := by
  have hperm := List.perm_insertionSort newerFirst (backlogShown fs)
  have hsorted := List.pairwise_insertionSort newerFirst (backlogShown fs)
  cases hsort : (backlogShown fs).insertionSort newerFirst with
  | nil =>
    simp only [List.head?_nil, Option.map_none, reduceCtorEq, false_iff]
    rintro ⟨f, hf, hn, -⟩
    have hmem := hperm.mem_iff.mpr (mem_backlogShown.mpr ⟨hf, hn⟩)
    rw [hsort] at hmem
    cases hmem
  | cons p rest =>
    obtain ⟨k, e⟩ := p
    rw [hsort] at hperm hsorted
    obtain ⟨hk, hvisible⟩ := mem_backlogShown.mp (hperm.mem_iff.mp List.mem_cons_self)
    have hfirst : ∀ m g, fs.read ⟨.backlog, m⟩ = some g → hidden m = false → newerFirst (k, e) (m, g) := by
      intro m g hg hm
      rcases List.mem_cons.mp (hperm.mem_iff.mpr (mem_backlogShown.mpr ⟨hg, hm⟩)) with heq | hrest
      · rw [heq]
        exact (total_of newerFirst (k, e) (k, e)).elim id id
      · exact List.rel_of_pairwise_cons hsorted hrest
    simp only [List.head?_cons, Option.map_some, Option.some.injEq]
    constructor
    · rintro rfl
      exact ⟨e, hk, hvisible, hfirst⟩
    · rintro ⟨f, hf, hn, hall⟩
      exact newerFirst_antisymm (hfirst n f hf hn) (hall k e hk hvisible)

theorem firstLine_eq (h : '\n' ∉ n.toList) : firstLine n = n := by
  rw [firstLine, List.takeWhile_eq_self_iff.mpr, String.ofList_toList]
  intro x hx
  simpa using fun heq : x = '\n' => h (heq ▸ hx)

theorem latest_eq_iff (hlines : ∀ m g, fs.read ⟨.backlog, m⟩ = some g → '\n' ∉ m.toList) (hn : n ≠ "") :
    latest fs = n ↔ IsLatest fs n := by
  rw [← head?_newest, latest]
  cases hhead : ((backlogShown fs).insertionSort newerFirst).head? with
  | none => simp [hn.symm]
  | some p =>
    have hmem := List.mem_of_mem_head? hhead
    have hp := mem_backlogShown.mp ((List.perm_insertionSort newerFirst _).mem_iff.mp hmem)
    simp [firstLine_eq (hlines _ _ hp.1)]

theorem latest_congr (h : ∀ n, fs.read ⟨.backlog, n⟩ = fs'.read ⟨.backlog, n⟩) : latest fs = latest fs' := by
  have hhead : ((backlogShown fs).insertionSort newerFirst).head?.map (·.1) =
      ((backlogShown fs').insertionSort newerFirst).head?.map (·.1) := by
    ext n
    rw [head?_newest, head?_newest]
    simp only [IsLatest, h]
  have hlatest : ∀ fs : FS, latest fs =
      ((((backlogShown fs).insertionSort newerFirst).head?.map (·.1)).map firstLine).getD "" := by
    intro fs
    rw [latest, Option.map_map]
    rfl
  rw [hlatest, hlatest, hhead]

end

/-! ## The lines of the ring -/

/-- How many lines the names make. -/
def weight (ns : List Name) : Nat := ((ns.filter globVisible).map fun n => n.toList.count '\n' + 1).sum

section
variable {path : RingPath} {fs fs' : FS} {ns ms : List Name} {n : Name}

theorem count_lsDirs_le (ringDir : String) (ns : List Name) (dirs : List (Name × List Name)) :
    (lsDirs ringDir [] dirs).count '\n' ≤ (lsDirs ringDir (n :: ns) dirs).count '\n' := by
  match dirs with
  | [] => exact le_refl _
  | [d] =>
    simp only [lsDirs, lsBlock, List.flatMap_cons, List.flatMap_nil, List.append_nil, List.count_cons,
      List.count_append]
    omega
  | d :: d' :: ds =>
    simp only [lsDirs, List.flatMap_cons, List.count_append, List.count_cons]
    omega

theorem lsDirs_files (ringDir : String) (hns : ns ≠ []) (hms : ms ≠ []) (dirs : List (Name × List Name)) :
    lsDirs ringDir ns dirs = lsDirs ringDir ms dirs := by
  cases ns with
  | nil => exact absurd rfl hns
  | cons => cases ms with
    | nil => exact absurd rfl hms
    | cons => rfl

theorem weight_perm (h : ns.Perm ms) : weight ns = weight ms :=
  ((h.filter _).map _).sum_eq

theorem weight_append : weight (ns ++ ms) = weight ns + weight ms := by
  simp [weight]

theorem weight_singleton (hn : '\n' ∉ n.toList) : weight [n] = if globVisible n then 1 else 0 := by
  rw [weight, List.filter_cons]
  split_ifs
  · rw [List.filter_nil, List.map_singleton, List.sum_singleton, List.count_eq_zero_of_not_mem hn]
  · rfl

theorem weight_eq_zero_iff : weight ns = 0 ↔ ∀ n ∈ ns, globVisible n = false := by
  rw [weight, List.sum_eq_zero_iff_forall_eq_nat]
  simp only [List.mem_map, List.mem_filter, forall_exists_index, and_imp]
  constructor
  · intro h n hn
    by_contra hv
    have hzero := h _ n hn (by simpa using hv) rfl
    omega
  · intro h k n hn hv _
    cases hv.symm.trans (h n hn)

/-- With the same directories, fewer lines in all are fewer lines of files. -/
theorem listed_lt_iff (hbare : ShellWords.isBare path.text = true) (fs fs' : FS)
    (dirs : List (Name × List Name)) :
    listed path fs' dirs < listed path fs dirs ↔ weight (fs'.names .ring) < weight (fs.names .ring) := by
  have hnone : ∀ ns : List Name, ns.filter globVisible = [] ↔ weight ns = 0 := by
    intro ns
    rw [weight_eq_zero_iff, List.filter_eq_nil_iff]
    simp
  have hlisted : ∀ fs : FS, listed path fs dirs = weight (fs.names .ring) + (lsDirs path.text
      ((fs.names .ring).filter globVisible) (dirs.filter fun d => globVisible d.1)).count '\n' := by
    intro fs
    rw [listed, if_pos hbare, count_ls hbare]
    rfl
  rw [hlisted, hlisted]
  generalize dirs.filter (fun d => globVisible d.1) = dirs
  by_cases h : (fs.names .ring).filter globVisible = []
  · have hzero := (hnone _).mp h
    rw [h]
    cases h' : (fs'.names .ring).filter globVisible with
    | nil => omega
    | cons n ns =>
      have hle := count_lsDirs_le (n := n) path.text ns dirs
      omega
  · by_cases h' : (fs'.names .ring).filter globVisible = []
    · have hzero := (hnone _).mp h'
      have hpos : weight (fs.names .ring) ≠ 0 := fun hw => h ((hnone _).mpr hw)
      rw [h']
      cases hfiles : (fs.names .ring).filter globVisible with
      | nil => exact absurd hfiles h
      | cons n ns =>
        have hle := count_lsDirs_le (n := n) path.text ns dirs
        omega
    · rw [lsDirs_files path.text h' h]
      omega

theorem captureAll_names {ws : List (Name × File)} (hws : (ws.map (·.1)).Nodup)
    (hnew : ∀ w ∈ ws, w.1 ∉ fs.names .ring) :
    ((captureAll fs ws).names .ring).Perm (ws.map (·.1) ++ fs.names .ring) := by
  unfold captureAll
  induction ws generalizing fs with
  | nil => exact List.Perm.refl _
  | cons w ws ih =>
    obtain ⟨hw, hws⟩ := List.nodup_cons.mp hws
    obtain ⟨hn, hnew⟩ := List.forall_mem_cons.mp hnew
    have hcreate := RingBound.names_create (g := w.2) hn
    rw [List.foldl_cons]
    refine (ih hws fun x hx hmem => ?_).trans ?_
    · rcases List.mem_cons.mp (hcreate.mem_iff.mp hmem) with heq | hmem
      · exact hw (List.mem_map.mpr ⟨x, hx, heq⟩)
      · exact hnew x hx hmem
    · exact (List.Perm.append_left _ hcreate).trans List.perm_middle

end

/-! ## The two signs -/

/-- The paths are what they say without quotes, capture stands still while the mover runs
and then writes new files, no name has a line break, and no file of the ring has a
namesake in the backlog. -/
structure Calm (c : Check) (r : Ring) : Prop where
  ringBare : ShellWords.isBare c.path.text = true
  backlogBare : ShellWords.isBare c.backlogDir = true
  between : ∀ run, c.mover = some run → run.between = []
  oneLine : ∀ p f, (c.toppedUp r).read p = some f → '\n' ∉ p.name.toList
  distinct : (c.captured.map (·.1)).Nodup
  fresh : ∀ x ∈ c.captured, (c.toppedUp r).read ⟨.ring, x.1⟩ = none
  free : ∀ n f, (c.toppedUp r).read ⟨.ring, n⟩ = some f → (c.toppedUp r).read ⟨.backlog, n⟩ = none

section
variable {c : Check} {env : Env} {r : Ring} {n : Name}

theorem not_takes_of_same (h : c.moved env r = c.toppedUp r) : ¬ c.Takes env r n := by
  rintro ⟨⟨f, hf⟩, hgone⟩
  rw [h, hf] at hgone
  cases hgone

/-- The ring after the mover's run: as it was, or without the one file that was taken. -/
theorem moved_ring (h : Calm c r) (env : Env) :
    ((∀ n, ¬ c.Takes env r n) ∧ ((c.toppedUp r).names .ring).Perm ((c.moved env r).names .ring)) ∨
    ∃ n, globPcap n = true ∧ (∀ m, c.Takes env r m ↔ m = n) ∧
      ((c.toppedUp r).names .ring).Perm (n :: (c.moved env r).names .ring) := by
  rcases moved_cases h.between env r with ⟨hsame, -⟩ | ⟨run, n, f, -, hf, hglob, -, hend⟩
  · exact .inl ⟨fun n => not_takes_of_same hsame, by rw [hsame]⟩
  have hframe : ∀ m, m ≠ n → (c.moved env r).read ⟨.ring, m⟩ = (c.toppedUp r).read ⟨.ring, m⟩ :=
    fun m hm => hend.frame (by simpa using hm) (ring_ne_dest c.moverConfig run m n)
  have hother : ∀ m, m ≠ n → ¬ c.Takes env r m := by
    rintro m hm ⟨⟨g, hg⟩, hgone⟩
    rw [hframe m hm, hg] at hgone
    cases hgone
  have hlist : ∀ m, m ≠ n → (m ∈ (c.toppedUp r).names .ring ↔ m ∈ (c.moved env r).names .ring) := by
    intro m hm
    rw [FS.mem_names, FS.mem_names, hframe m hm]
  rcases hend.source (ring_ne_dest c.moverConfig run n n) hf with hkept | hgone
  · refine .inl ⟨fun m => ?_, FS.names_perm (FS.names_nodup _ _) fun m => ?_⟩
    · by_cases hm : m = n
      · subst hm
        rintro ⟨-, hgone⟩
        cases hkept.symm.trans hgone
      · exact hother m hm
    · by_cases hm : m = n
      · subst hm
        rw [FS.mem_names, hkept, hf]
      · rw [← hlist m hm, FS.mem_names]
  · refine .inr ⟨n, hglob, fun m => ⟨fun hm => not_imp_comm.mp (hother m) (not_not.mpr hm), ?_⟩, ?_⟩
    · rintro rfl
      exact ⟨⟨f, hf⟩, hgone⟩
    · refine FS.names_perm (List.nodup_cons.mpr ⟨?_, FS.names_nodup _ _⟩) fun m => ?_
      · rw [FS.mem_names, hgone]
        simp
      · rw [List.mem_cons]
        by_cases hm : m = n
        · subst hm
          simp [hf]
        · rw [← hlist m hm, FS.mem_names]
          simp [hm]

theorem fresh_moved (h : Calm c r) (env : Env) {x : Name × File} (hx : x ∈ c.captured) :
    x.1 ∉ (c.moved env r).names .ring := by
  have hnew : x.1 ∉ (c.toppedUp r).names .ring := by
    rw [FS.mem_names, h.fresh x hx]
    simp
  rcases moved_ring h env with ⟨-, hperm⟩ | ⟨n, -, -, hperm⟩
  · rwa [← hperm.mem_iff]
  · rw [hperm.mem_iff, List.mem_cons, not_or] at hnew
    exact hnew.2

theorem globVisible_of_globPcap (hn : globPcap n = true) : globVisible n = !hidden n := by
  rw [globVisible, globPcapAny_of_globPcap hn, Bool.true_and]

/-- The first sign: a file is gone, and none has come. -/
theorem fewer_lines_iff (h : Calm c r) (env : Env) :
    listed c.path (captureAll (c.moved env r) c.captured) r.dirs < listed c.path (c.toppedUp r) r.dirs ↔
      ∃ n, c.Takes env r n ∧ hidden n = false ∧ ∀ x ∈ c.captured, globVisible x.1 = false := by
  have hnone : weight (c.captured.map (·.1)) = 0 ↔ ∀ x ∈ c.captured, globVisible x.1 = false := by
    rw [weight_eq_zero_iff, List.forall_mem_map]
  rw [listed_lt_iff h.ringBare, weight_perm (captureAll_names h.distinct fun x hx => fresh_moved h env hx),
    weight_append]
  rcases moved_ring h env with ⟨hno, hperm⟩ | ⟨n, hglob, htakes, hperm⟩
  · rw [weight_perm hperm]
    refine iff_of_false (by omega) ?_
    rintro ⟨n, hn, -⟩
    exact hno n hn
  · obtain ⟨⟨f, hf⟩, -⟩ := (htakes n).mpr rfl
    rw [weight_perm hperm, ← List.singleton_append, weight_append,
      weight_singleton (h.oneLine _ f hf), globVisible_of_globPcap hglob, ← hnone]
    simp only [htakes, exists_eq_left]
    cases hidden n <;> simp

/-- The second sign: what the mover has put in the backlog is the newest there. -/
theorem latest_changes_iff (h : Calm c r) (env : Env) :
    (latest (c.moved env r) ≠ "" ∧ latest (c.moved env r) ≠ latest (c.toppedUp r)) ↔
      ∃ n, c.Places env r ⟨.backlog, n⟩ ∧ IsLatest (c.moved env r) n := by
  have hbefore : ∀ m g, (c.toppedUp r).read ⟨.backlog, m⟩ = some g → '\n' ∉ m.toList :=
    fun m g hg => h.oneLine _ g hg
  have hsame : (∀ n, ¬ c.Places env r ⟨.backlog, n⟩) → latest (c.moved env r) = latest (c.toppedUp r) := by
    intro hno
    refine latest_congr fun n => ?_
    rw [moved_read_elsewhere h.between (by simp) (hno n), toppedUp_read c r (.inl (by simp))]
  rcases moved_cases h.between env r with ⟨-, hno⟩ | ⟨run, n, f, -, hf, hglob, hplaces, hend⟩
  · refine iff_of_false (fun hlate => hlate.2 (hsame fun n => hno _)) ?_
    rintro ⟨n, hn, -⟩
    exact hno _ hn
  by_cases hdest : destDir c.moverConfig run = .backlog
  · rw [hdest] at hplaces hend
    have hfree := h.free n f hf
    have hframe : ∀ m, m ≠ n → (c.moved env r).read ⟨.backlog, m⟩ = (c.toppedUp r).read ⟨.backlog, m⟩ :=
      fun m hm => hend.frame (Path.ne_of_dir (by simp)) (by simpa using hm)
    have hafter : ∀ m g, (c.moved env r).read ⟨.backlog, m⟩ = some g → '\n' ∉ m.toList := by
      intro m g hg
      by_cases hm : m = n
      · exact hm ▸ h.oneLine _ f hf
      · exact hbefore m g (hframe m hm ▸ hg)
    constructor
    · rintro ⟨hne, hchanged⟩
      obtain ⟨m, hm⟩ : ∃ m, latest (c.moved env r) = m := ⟨_, rfl⟩
      rw [hm] at hne hchanged
      have hlate := (latest_eq_iff hafter hne).mp hm
      by_cases hmn : m = n
      · exact ⟨n, (hplaces _).mpr rfl, hmn ▸ hlate⟩
      · -- it was in the backlog before, with the same files around it
        refine absurd ?_ hchanged
        obtain ⟨g, hg, hvisible, hall⟩ := hlate
        rw [eq_comm, latest_eq_iff hbefore hne]
        refine ⟨g, hframe m hmn ▸ hg, hvisible, fun k e he hk => hall k e ?_ hk⟩
        have hkn : k ≠ n := by
          rintro rfl
          cases hfree.symm.trans he
        rw [hframe k hkn, he]
    · rintro ⟨k, hk, hlate⟩
      obtain rfl : k = n := by simpa using (hplaces _).mp hk
      have hne : k ≠ "" := by
        rintro rfl
        revert hglob
        decide
      have hnow := (latest_eq_iff hafter hne).mpr hlate
      rw [hnow]
      refine ⟨hne, fun hthen => ?_⟩
      obtain ⟨g, hg, -⟩ := (latest_eq_iff hbefore hne).mp hthen.symm
      cases hfree.symm.trans hg
  · have hno : ∀ m, ¬ c.Places env r ⟨.backlog, m⟩ := fun m hm =>
      hdest (congrArg Path.dir ((hplaces _).mp hm)).symm
    refine iff_of_false (fun hlate => hlate.2 (hsame hno)) ?_
    rintro ⟨m, hm, -⟩
    exact hno m hm

end

/-- **What the check's success says.** For every content of the ring and the backlog,
every configuration and every way the mover's run goes, with the exporter idle, nothing
new in the queue and all else calm (`Calm`): capture stopped during that run and writing
only new files after it, paths that are what they say without quotes, names of one line,
and no file of the ring with a namesake in the backlog. The check passes exactly if both
services are up and the mover has either taken a visible file from the ring before
capture has opened another, or put something in the backlog, whole or not, that is the
newest there. -/
theorem check_passes_iff (c : Check) (w : Watch) (env : Env) (r : Ring) (h : Calm c r)
    (hidle : w.exported = []) (hqueue : w.queueAfter = w.queueBefore) :
    c.exitStatus w env r = 0 ↔ w.captureActive = true ∧ w.zeekActive = true ∧
      ((∃ n, c.Takes env r n ∧ hidden n = false ∧ ∀ x ∈ c.captured, globVisible x.1 = false) ∨
        ∃ n, c.Places env r ⟨.backlog, n⟩ ∧ IsLatest (c.moved env r) n) := by
  have hseen : c.seen w env r = captureAll (c.moved env r) c.captured := by
    rw [Check.seen, hidle, List.foldl_nil]
  have hback : ∀ other fs, c.latestBack other fs = latest fs := fun other fs => if_pos h.backlogBare
  have hbacklog : latest (c.seen w env r) = latest (c.moved env r) := by
    rw [hseen]
    exact latest_congr fun n => captureAll_read (fun _ _ => Path.ne_of_dir (by simp)) _
  have hmoved : c.moverMoved w env r = true ↔
      (∃ n, c.Takes env r n ∧ hidden n = false ∧ ∀ x ∈ c.captured, globVisible x.1 = false) ∨
        ∃ n, c.Places env r ⟨.backlog, n⟩ ∧ IsLatest (c.moved env r) n := by
    rw [← fewer_lines_iff h env, ← latest_changes_iff h env, Check.moverMoved, hback, hback, hbacklog, hseen, hqueue]
    simp
  rw [← hmoved]
  cases hm : c.moverMoved w env r <;> cases hc : w.captureActive <;> cases hz : w.zeekActive <;>
    simp [Check.exitStatus, Check.logsOk, hm, hc, hz]

/-- The sensor of `benchCheck`, where capture has opened its next file by the time the
check counts again. -/
def benchBusy : Check := { benchCheck with captured := [("SEER-20260101-000020.pcap", ⟨[], 100⟩)] }

theorem benchBusy_toppedUp : benchBusy.toppedUp benchEmpty =
    (FS.empty.write ⟨.ring, "SEER-DUMMY-1767225600-1.pcap"⟩ ⟨[0], 90⟩).write
      ⟨.ring, "SEER-DUMMY-1767225600-2.pcap"⟩ ⟨[0], 90⟩ := by
  rfl

theorem benchBusy_calm : Calm benchBusy benchEmpty := by
  have htwo : ∀ p f, (benchBusy.toppedUp benchEmpty).read p = some f →
      p = ⟨.ring, "SEER-DUMMY-1767225600-2.pcap"⟩ ∨ p = ⟨.ring, "SEER-DUMMY-1767225600-1.pcap"⟩ := by
    intro p f hf
    by_contra hp
    rw [not_or] at hp
    rw [benchBusy_toppedUp, FS.read_write_ne hp.1, FS.read_write_ne hp.2] at hf
    cases hf
  refine ⟨by decide, by decide, fun run h => by cases h; rfl, fun p f hf => ?_, by simp [benchBusy], ?_,
    fun n f _ => ?_⟩
  · rcases htwo p f hf with rfl | rfl <;> decide +kernel
  · simp only [benchBusy, List.mem_singleton, forall_eq]
    decide +kernel
  · refine Option.eq_none_iff_forall_not_mem.mpr fun g hg => ?_
    rcases htwo _ g hg with h | h <;> cases congrArg Path.dir h

/-- The dummy is on the drive, and the check fails. -/
theorem check_passes_iff_drive :
    (∃ f, (benchBusy.moved benchEnv benchEmpty).read
        ⟨.pcap "SEER_EXT" "20260101", "SEER-DUMMY-1767225600-2.pcap"⟩ = some f) ∧
      benchBusy.exitStatus {} benchEnv benchEmpty ≠ 0 := by
  refine ⟨⟨⟨[0], 90⟩, by decide +kernel⟩, fun hpass => ?_⟩
  obtain ⟨-, -, ⟨n, -, -, hnone⟩ | ⟨n, ⟨run, m, hrun, -, -, hp, -⟩, -⟩⟩ :=
    (check_passes_iff benchBusy {} benchEnv benchEmpty benchBusy_calm rfl rfl).mp hpass
  · exact absurd (hnone _ List.mem_cons_self) (by decide)
  · cases hrun
    have hdest : Dir.backlog = .pcap "SEER_EXT" "20260101" :=
      (congrArg Path.dir hp).trans benchCheck_dest
    cases hdest

end SeerSensor.InstallCheck
