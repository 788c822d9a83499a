/-
The ring is a queue. Capture appends to it and writes only to its newest
file; the mover takes from its front, one file a run at most, and never the
newest.

`closed` is only a quiet time, which an idle active file has too, so nothing
in the mover says "not the newest". It follows from the order: the files are
picked by modification time, what is closed has everything older closed as
well, and a run that moves has counted at least two. `Fifo` is the invariant.
-/
import Mathlib.Tactic.Linarith
import SeerSensor.Lib.Oldest
import SeerSensor.Lib.Runs
import SeerSensor.MoveOldestFacts

namespace SeerSensor.RingOrder

open MoveOldest Raise

/-- The files, every name capture ever created in order, and the names that
left the ring in the order they left. -/
structure State where
  fs : FS
  created : List Name
  left : List Name

/-- What has not left, oldest first. -/
def State.rest (s : State) : List Name := s.created.drop s.left.length

/-- Capture may write `f` under `n`: a new `*.pcap` name, or the newest file
again, and in either case later than every other file of the ring. -/
def mayWrite (s : State) (n : Name) (f : File) : Prop :=
  (s.created.getLast? = some n ∨ n ∉ s.created ∧ globPcap n = true) ∧
    ∀ m ∈ s.fs.names .ring, m ≠ n → ∀ g ∈ s.fs.read ⟨.ring, m⟩, g.mtime < f.mtime

instance (s : State) (n : Name) (f : File) : Decidable (mayWrite s n f) :=
  inferInstanceAs (Decidable (_ ∧ _))

/-- Capture writes a file; `none` is that it may not. -/
def capture (s : State) (w : Name × File) : Option State :=
  if mayWrite s w.1 w.2 then
    some { s with
      fs := s.fs.write ⟨.ring, w.1⟩ w.2
      created := if w.1 ∈ s.created then s.created else s.created ++ [w.1] }
  else
    none

/-- The name was in the ring and is not any more. -/
def leftRing (before after : FS) (n : Name) : Bool :=
  (before.read ⟨.ring, n⟩).isSome && (after.read ⟨.ring, n⟩).isNone

/-- What capture does inside a run: nothing when `main` returns at its count. -/
def during (cfg : Config) (s : State) (r : MoverRun) : List (Name × File) :=
  if (ringPcaps s.fs).length < cfg.thresh then [] else r.between

/-- One run of `main`, with capture writing between its two listings. -/
def mover (cfg : Config) (env : Env) (s : State) (r : MoverRun) : Option State :=
  (Runs.run capture s (during cfg s r)).map fun t =>
    let fs := after (main cfg env r) s.fs
    { t with fs := fs, left := t.left ++ t.created.filter (leftRing t.fs fs) }

/-- Captures, and runs of the mover. -/
inductive Act where
  | capture (n : Name) (f : File)
  | mover (r : MoverRun)

/-- One capture, or one run. -/
def step (cfg : Config) (env : Env) (s : State) : Act → Option State
  | .capture n f => capture s (n, f)
  | .mover r => mover cfg env s r

/-- The mover's order, in terms of the files: what left is a prefix of what
was created, the ring holds exactly the rest, and the rest is in the order of
modification times. -/
structure Fifo (s : State) : Prop where
  nodup : s.created.Nodup
  prefix_ : s.left <+: s.created
  newest : s.created ≠ [] → s.left.length < s.created.length
  pcap : ∀ n ∈ s.created, globPcap n = true
  ring : ∀ n, (∃ f, s.fs.read ⟨.ring, n⟩ = some f) ↔ n ∈ s.rest
  mtimes : s.rest.Pairwise fun a b => ∀ f g, s.fs.read ⟨.ring, a⟩ = some f →
    s.fs.read ⟨.ring, b⟩ = some g →
    f.mtime < g.mtime

/-! ## Capture appends -/

theorem capture_last {s s' : State} {n : Name} {f : File} (hs : Fifo s)
    (h : capture s (n, f) = some s') :
    ∃ pre, s'.created = pre ++ [n] ∧ n ∉ pre ∧ s.left.length ≤ pre.length ∧ pre <+: s.created ∧
      (∀ m, m ≠ n → (m ∈ s.rest ↔ m ∈ pre.drop s.left.length)) := by
  simp only [capture] at h
  split at h
  next hmay =>
    simp only [Option.some.injEq] at h
    subst h
    rcases hmay.1 with hlast | ⟨hnew, _⟩
    · obtain ⟨pre, hpre⟩ := List.getLast?_eq_some_iff.mp hlast
      have hnot : n ∉ pre := by
        have := hs.nodup
        rw [hpre, List.nodup_append] at this
        exact fun hn => this.2.2 n hn n (by simp) rfl
      have hlen := hs.newest (by rw [hpre]; simp)
      have hle : s.left.length ≤ pre.length := by rw [hpre] at hlen; simp at hlen; omega
      refine ⟨pre, by simp [hpre], hnot, hle, ⟨[n], hpre.symm⟩, fun m hm => ?_⟩
      rw [State.rest, hpre, List.drop_append_of_le_length hle]
      simp [hm]
    · have hle := hs.prefix_.length_le
      exact ⟨s.created, by simp [hnew], hnew, hle, List.prefix_rfl, fun m _ => Iff.rfl⟩
  · cases h

theorem capture_eq {s s' : State} {w : Name × File} (h : capture s w = some s') :
    s'.fs = s.fs.write ⟨.ring, w.1⟩ w.2 ∧ s'.left = s.left ∧ mayWrite s w.1 w.2 ∧
      ∀ n ∈ s'.created, n ∈ s.created ∨ n = w.1 := by
  simp only [capture] at h
  split at h
  next hmay =>
    simp only [Option.some.injEq] at h
    subst h
    refine ⟨rfl, rfl, hmay, fun n hn => ?_⟩
    simp only at hn
    split at hn
    · exact .inl hn
    · simpa using hn
  · cases h

theorem capture_fifo {s s' : State} {w : Name × File} (hs : Fifo s) (h : capture s w = some s') :
    Fifo s' := by
  obtain ⟨n, f⟩ := w
  obtain ⟨hfs, hleft, hmay, hcreated⟩ := capture_eq h
  obtain ⟨pre, hpre, hnot, hle, hpfx, hrest⟩ := capture_last hs h
  have hrest' : s'.rest = pre.drop s.left.length ++ [n] := by
    rw [State.rest, hpre, hleft, List.drop_append_of_le_length hle]
  have hdrop : ∀ m ∈ pre.drop s.left.length, m ≠ n := fun m hm he => hnot (he ▸ List.mem_of_mem_drop hm)
  have hsub : (pre.drop s.left.length).Sublist s.rest := hpfx.sublist.drop _
  have hread : ∀ m, m ≠ n → s'.fs.read ⟨.ring, m⟩ = s.fs.read ⟨.ring, m⟩ := by
    intro m hm
    rw [hfs]; exact FS.read_write_ne (by simpa using hm)
  have hself : s'.fs.read ⟨.ring, n⟩ = some f := by rw [hfs]; exact FS.read_write_self
  refine ⟨?_, ?_, fun _ => ?_, fun m hm => ?_, fun m => ?_, ?_⟩
  · rw [hpre, List.nodup_append]
    refine ⟨hs.nodup.sublist hpfx.sublist, by simp, fun a ha b hb => ?_⟩
    rw [List.mem_singleton] at hb
    rw [hb]
    exact fun he => hnot (he ▸ ha)
  · rw [hleft, hpre]
    exact (List.prefix_of_prefix_length_le hs.prefix_ hpfx hle).trans (List.prefix_append _ _)
  · rw [hleft, hpre]; simp; omega
  · rcases hcreated m hm with hm | rfl
    · exact hs.pcap m hm
    · rcases hmay.1 with hlast | ⟨_, hg⟩
      · exact hs.pcap _ (List.mem_of_getLast? hlast)
      · exact hg
  · rw [hrest', List.mem_append, List.mem_singleton]
    by_cases hm : m = n
    · subst hm; simp [hself]
    · rw [hread m hm, hs.ring, hrest m hm]; simp [hm]
  · rw [hrest', List.pairwise_append]
    refine ⟨?_, by simp, fun a ha b hb => ?_⟩
    · refine (hs.mtimes.sublist hsub).imp_of_mem fun ha hb h => ?_
      rw [hread _ (hdrop _ ha), hread _ (hdrop _ hb)]
      exact h
    · rw [List.mem_singleton] at hb
      subst hb
      intro g g' hg hg'
      rw [hread a (hdrop a ha)] at hg
      rw [hself, Option.some.injEq] at hg'
      rw [← hg']
      exact hmay.2 a (FS.mem_names.mpr ⟨g, hg⟩) (hdrop a ha) g hg

theorem captures_fifo {s t : State} {ws : List (Name × File)} (hs : Fifo s)
    (h : Runs.run capture s ws = some t) :
    Fifo t :=
  Runs.invariant (fun _ _ _ hs h => capture_fifo hs h) hs h

theorem captures_eq : ∀ {s t : State} {ws : List (Name × File)}, Runs.run capture s ws = some t →
    t.fs = captureAll s.fs ws ∧ t.left = s.left ∧ s.created.length ≤ t.created.length
  | s, t, [], h => by
    simp only [Runs.run_nil, Option.some.injEq] at h
    subst h
    exact ⟨rfl, rfl, Nat.le_refl _⟩
  | s, t, w :: ws, h => by
    obtain ⟨u, hu, hr⟩ := Runs.run_cons.mp h
    obtain ⟨h1, h2, h3⟩ := captures_eq hr
    obtain ⟨hfs, hleft, -, -⟩ := capture_eq hu
    have hlen : s.created.length ≤ u.created.length := by
      simp only [capture] at hu
      split at hu
      · simp only [Option.some.injEq] at hu
        subst hu
        simp only
        split <;> simp
      · cases hu
    refine ⟨?_, h2.trans hleft, Nat.le_trans hlen h3⟩
    rw [h1, hfs]
    rfl

/-! ## The mover takes the head -/

/-- The rest of the queue with its files, oldest first. -/
def State.queue (s : State) : List (Name × File) :=
  s.rest.filterMap fun n => (s.fs.read ⟨.ring, n⟩).map fun f => (n, f)

theorem Fifo.map_queue {s : State} (hs : Fifo s) : s.queue.map (·.1) = s.rest :=
  map_fst_stat fun n hn => (hs.ring n).mpr hn

theorem Fifo.listing {s : State} (hs : Fifo s) : (ringPcaps s.fs).Perm s.queue := by
  have hnd : (ringPcaps s.fs).Nodup := by
    refine List.Nodup.of_map (·.1) ?_
    rw [map_ringPcaps]
    exact (s.fs.names_nodup .ring).filter _
  have hnd' : s.queue.Nodup := by
    refine List.Nodup.of_map (·.1) ?_
    rw [hs.map_queue]
    exact hs.nodup.sublist (List.drop_sublist _ _)
  rw [List.perm_ext_iff_of_nodup hnd hnd']
  intro ⟨n, f⟩
  simp only [mem_ringPcaps, State.queue, List.mem_filterMap, Option.map_eq_some_iff, Prod.mk.injEq]
  refine ⟨fun h => ⟨n, (hs.ring n).mp ⟨f, h.1⟩, f, h.1, rfl, rfl⟩, fun h => ?_⟩
  obtain ⟨m, hm, g, hg, rfl, rfl⟩ := h
  exact ⟨hg, hs.pcap _ (List.mem_of_mem_drop hm)⟩

theorem Fifo.length_ringPcaps {s : State} (hs : Fifo s) : (ringPcaps s.fs).length = s.rest.length := by
  rw [hs.listing.length_eq, ← hs.map_queue, List.length_map]

theorem Fifo.sorted {s : State} (hs : Fifo s) : s.queue.Pairwise fun a b => a.2.mtime < b.2.mtime := by
  rw [State.queue, List.pairwise_filterMap]
  refine hs.mtimes.imp fun {a b} h x hx y hy => ?_
  obtain ⟨f, hf, rfl⟩ := Option.map_eq_some_iff.mp hx
  obtain ⟨g, hg, rfl⟩ := Option.map_eq_some_iff.mp hy
  exact h f g hf hg

/-- What is picked is the oldest file: an older one is closed if it is. -/
theorem Fifo.pick_head {s : State} (hs : Fifo s) {now : Time} {n : Name}
    (h : pickOldestClosed now s.fs = some n) : s.rest.head? = some n := by
  have hsort : (ringPcaps s.fs).insertionSort byMtime = s.queue :=
    Oldest.insertionSort_eq (fun p : Name × File => p.2.mtime) (fun _ _ => Iff.rfl) hs.listing hs.sorted
  rw [pickOldestClosed, hsort, Option.map_eq_some_iff] at h
  obtain ⟨p, hp, rfl⟩ := h
  have holder : s.queue.Pairwise fun a b => closed now b.2 = true → closed now a.2 = true := by
    refine hs.sorted.imp fun {a b} hlt hb => ?_
    simp only [closed, decide_eq_true_eq] at hb ⊢
    linarith
  rw [← hs.map_queue, List.head?_map, Oldest.find?_eq_head holder hp]
  rfl

/-- A run leaves the ring as capture left it, or without its oldest file; the
latter only when it counted a threshold of files. -/
theorem main_ring (cfg : Config) (env : Env) {s t : State} {r : MoverRun} (ht : Fifo t)
    (hr : Runs.run capture s (during cfg s r) = some t) :
    (∀ n, (after (main cfg env r) s.fs).read ⟨.ring, n⟩ = t.fs.read ⟨.ring, n⟩) ∨
    ∃ x, t.rest.head? = some x ∧ cfg.thresh ≤ (ringPcaps s.fs).length ∧
      (after (main cfg env r) s.fs).read ⟨.ring, x⟩ = none ∧
      ∀ n, n ≠ x → (after (main cfg env r) s.fs).read ⟨.ring, n⟩ = t.fs.read ⟨.ring, n⟩ := by
  obtain ⟨hfs, -, -⟩ := captures_eq hr
  rcases main_cases cfg env r s.fs with ⟨hlt, hmain⟩ | ⟨hcount, hmain⟩
  · simp only [during, hlt, if_true] at hfs
    left
    intro n
    rw [hmain, hfs]
    rfl
  have hnot : ¬ (ringPcaps s.fs).length < cfg.thresh := by omega
  simp only [during, hnot, if_false] at hfs
  rw [hmain, ← hfs]
  rcases pickAndMove_ring cfg env r t.fs with hsame | ⟨x, hx, hgone, hother⟩
  · exact .inl hsame
  · exact .inr ⟨x, ht.pick_head hx, hcount, hgone, hother⟩

theorem Fifo.split {s : State} (hs : Fifo s) : s.created = s.left ++ s.rest :=
  List.prefix_iff_eq_append.mp hs.prefix_ |>.symm

theorem Fifo.left_gone {s : State} (hs : Fifo s) {n : Name} (hn : n ∈ s.left) :
    s.fs.read ⟨.ring, n⟩ = none := by
  have hnd := hs.nodup
  rw [hs.split, List.nodup_append] at hnd
  have hnot : n ∉ s.rest := fun hr => hnd.2.2 n hn n hr rfl
  by_contra hread
  exact hnot ((hs.ring n).mp (Option.ne_none_iff_exists'.mp hread))

theorem Fifo.keep {t : State} (ht : Fifo t) {fs : FS}
    (h : ∀ n, fs.read ⟨.ring, n⟩ = t.fs.read ⟨.ring, n⟩) :
    t.created.filter (leftRing t.fs fs) = [] ∧ Fifo { t with fs := fs } := by
  refine ⟨?_, ht.nodup, ht.prefix_, ht.newest, ht.pcap, fun n => ?_, ?_⟩
  · rw [List.filter_eq_nil_iff]
    intro n _
    simp only [leftRing, h, Bool.and_eq_true, Option.isSome_iff_ne_none, Option.isNone_iff_eq_none]
    exact fun hn => hn.1 hn.2
  · rw [h]; exact ht.ring n
  · refine ht.mtimes.imp fun hab => ?_
    rw [h, h]
    exact hab

theorem Fifo.split_head {t : State} (ht : Fifo t) {x : Name} {rest : List Name}
    (hrest : t.rest = x :: rest) :
    t.created = t.left ++ x :: rest ∧ x ∉ rest := by
  have hsplit : t.created = t.left ++ x :: rest := by rw [← hrest]; exact ht.split
  have hnd : (t.left ++ x :: rest).Nodup := hsplit ▸ ht.nodup
  exact ⟨hsplit, (List.nodup_cons.mp (List.nodup_append.mp hnd).2.1).1⟩

/-- When the oldest file goes and the others stay, it is what has left. -/
theorem Fifo.takes_one {t : State} (ht : Fifo t) {fs : FS} {x : Name} {rest : List Name}
    (hrest : t.rest = x :: rest) (hgone : fs.read ⟨.ring, x⟩ = none)
    (h : ∀ n, n ≠ x → fs.read ⟨.ring, n⟩ = t.fs.read ⟨.ring, n⟩) :
    t.created.filter (leftRing t.fs fs) = [x] := by
  obtain ⟨hsplit, hx⟩ := ht.split_head hrest
  have hin : ∀ n ∈ x :: rest, (t.fs.read ⟨.ring, n⟩).isSome = true := by
    intro n hn
    rw [Option.isSome_iff_exists]
    exact (ht.ring n).mpr (hrest ▸ hn)
  have hleft : t.left.filter (leftRing t.fs fs) = [] := by
    rw [List.filter_eq_nil_iff]
    intro n hn
    simp [leftRing, ht.left_gone hn]
  have hlater : rest.filter (leftRing t.fs fs) = [] := by
    rw [List.filter_eq_nil_iff]
    intro n hn
    have hstays := hin n (by simp [hn])
    rw [← h n fun he => hx (he ▸ hn)] at hstays
    simp [leftRing, Option.isSome_iff_ne_none.mp hstays]
  have hhead : leftRing t.fs fs x = true := by simp [leftRing, hgone, hin x (by simp)]
  rw [hsplit, List.filter_append, List.filter_cons]
  simp [hleft, hlater, hhead]

/-- Taking the oldest of at least two keeps the order. -/
theorem Fifo.take {t : State} (ht : Fifo t) {fs : FS} {x : Name} {rest : List Name}
    (hrest : t.rest = x :: rest) (htwo : 2 ≤ t.rest.length) (hgone : fs.read ⟨.ring, x⟩ = none)
    (h : ∀ n, n ≠ x → fs.read ⟨.ring, n⟩ = t.fs.read ⟨.ring, n⟩) :
    Fifo { t with fs := fs, left := t.left ++ [x] } := by
  obtain ⟨hsplit, hx⟩ := ht.split_head hrest
  have hne : ∀ n ∈ rest, n ≠ x := fun n hn he => hx (he ▸ hn)
  have hnew : State.rest { t with fs := fs, left := t.left ++ [x] } = rest := by
    simp only [State.rest, hsplit, List.length_append, List.length_singleton]
    rw [List.drop_append]
    simp
  refine ⟨ht.nodup, ?_, fun _ => ?_, ht.pcap, fun n => ?_, ?_⟩
  · rw [hsplit]
    exact ⟨rest, by simp⟩
  · rw [hrest] at htwo
    simp only [List.length_append, hsplit, List.length_cons, List.length_nil] at htwo ⊢
    omega
  · rw [hnew]
    by_cases hn : n = x
    · subst hn; simp [hgone, hx]
    · rw [h n hn, ht.ring, hrest]; simp [hn]
  · rw [hnew]
    have hm := ht.mtimes
    rw [hrest] at hm
    refine (List.pairwise_cons.mp hm).2.imp_of_mem fun ha hb hab => ?_
    rw [h _ (hne _ ha), h _ (hne _ hb)]
    exact hab

/-- One run of the mover: the order holds on, at most one more file has left,
and the ring is not taken below the threshold. -/
theorem mover_step {cfg : Config} {env : Env} {s s' : State} {r : MoverRun}
    (hthresh : 2 ≤ cfg.thresh) (hs : Fifo s) (h : mover cfg env s r = some s') :
    Fifo s' ∧ (s'.left = s.left ∨ ∃ x, s'.left = s.left ++ [x]) ∧
      min s.rest.length (cfg.thresh - 1) ≤ s'.rest.length := by
  simp only [mover, Option.map_eq_some_iff] at h
  obtain ⟨t, ht, rfl⟩ := h
  have hft := captures_fifo hs ht
  obtain ⟨-, hleft, hlen⟩ := captures_eq ht
  have hgrow : s.rest.length ≤ t.rest.length := by
    simp only [State.rest, List.length_drop, hleft]; omega
  rcases main_ring cfg env hft ht with hsame | ⟨x, hx, hcount, hgone, hother⟩
  · obtain ⟨hfilter, hfifo⟩ := hft.keep hsame
    simp only [hfilter, List.append_nil]
    refine ⟨hfifo, .inl hleft, ?_⟩
    show min s.rest.length (cfg.thresh - 1) ≤ t.rest.length
    omega
  · rw [hs.length_ringPcaps] at hcount
    obtain ⟨rest, hrest⟩ := List.head?_eq_some_iff.mp hx
    simp only [hft.takes_one hrest hgone hother]
    refine ⟨hft.take hrest (by omega) hgone hother, .inr ⟨x, by rw [hleft]⟩, ?_⟩
    simp only [State.rest, List.length_drop, List.length_append, List.length_singleton]
      at hcount hgrow ⊢
    omega

theorem step_fifo {cfg : Config} {env : Env} (hthresh : 2 ≤ cfg.thresh) (s : State) (a : Act)
    (s' : State) (hs : Fifo s) (h : step cfg env s a = some s') : Fifo s' := by
  cases a with
  | capture n f => exact capture_fifo hs h
  | mover r => exact (mover_step hthresh hs h).1

theorem fifo_empty {fs : FS} (h : fs.names .ring = []) : Fifo ⟨fs, [], []⟩ := by
  refine ⟨by simp, by simp, by simp, by simp, fun n => ?_, by simp [State.rest]⟩
  rw [← FS.mem_names, h]
  simp [State.rest]

theorem Fifo.names_perm {s : State} (hs : Fifo s) : (s.fs.names .ring).Perm s.rest := by
  have hrest : s.rest.Nodup := hs.nodup.sublist (List.drop_sublist _ _)
  exact FS.names_perm hrest hs.ring

/-- **First in, first out.** From an empty ring, after any captures and any runs
of the mover in any order, with any clock reading, any drive and any faults in
the moves: what left the ring is a prefix of what was created, in that order;
the ring holds exactly the rest, the newest file always among it; and one more
run lets at most one more file leave and never takes the ring below what it
had or `THRESH - 1`. -/
theorem mover_first_in_first_out (cfg : Config) (env : Env) (hthresh : 2 ≤ cfg.thresh) (fs : FS)
    (hempty : fs.names .ring = []) (acts : List Act) (s : State)
    (hrun : Runs.run (step cfg env) ⟨fs, [], []⟩ acts = some s) :
    s.left <+: s.created ∧
    (s.created = s.left ++ s.rest ∧ (s.fs.names .ring).Perm s.rest) ∧
    (∀ newest, s.created.getLast? = some newest → newest ∈ s.fs.names .ring) ∧
    (∀ r s', step cfg env s (.mover r) = some s' →
      (s'.left = s.left ∨ ∃ n, s'.left = s.left ++ [n]) ∧
      min (s.fs.names .ring).length (cfg.thresh - 1) ≤ (s'.fs.names .ring).length) := by
  have hs : Fifo s := Runs.invariant (step_fifo hthresh) (fifo_empty hempty) hrun
  refine ⟨hs.prefix_, ⟨hs.split, hs.names_perm⟩, fun newest hlast => ?_, fun r s' h => ?_⟩
  · rw [hs.names_perm.mem_iff]
    obtain ⟨pre, hpre⟩ := List.getLast?_eq_some_iff.mp hlast
    have hlt := hs.newest (by rw [hpre]; simp)
    have hle : s.left.length ≤ pre.length := by rw [hpre] at hlt; simp at hlt; omega
    rw [State.rest, hpre, List.drop_append_of_le_length hle]
    simp
  · obtain ⟨hs', hone, hsize⟩ := mover_step hthresh hs h
    rw [hs.names_perm.length_eq, hs'.names_perm.length_eq]
    exact ⟨hone, hsize⟩

/-- Two captures and a run at the wizard's smallest threshold. -/
def benchRun : List Act :=
  [.capture "a.pcap" ⟨[97], 0⟩, .capture "b.pcap" ⟨[98], 20⟩,
    .mover { now := 30, mounts := noMounts, date := "20260101" }]

theorem mover_first_in_first_out_two :
    ∃ s, Runs.run (step { thresh := 2 } benchEnv) ⟨.empty, [], []⟩ benchRun = some s ∧
      s.left = ["a.pcap"] ∧ s.created = ["a.pcap", "b.pcap"] ∧ s.left <+: s.created ∧
      "b.pcap" ∈ s.fs.names .ring := by
  have hran : (Runs.run (step { thresh := 2 } benchEnv) ⟨.empty, [], []⟩ benchRun).map
    (fun s => (s.left, s.created)) =
      some (["a.pcap"], ["a.pcap", "b.pcap"]) := by decide +kernel
  obtain ⟨s, hrun, hs⟩ := Option.map_eq_some_iff.mp hran
  obtain ⟨hleft, hcreated⟩ := Prod.mk.inj hs
  obtain ⟨hpfx, -, hnewest, -⟩ :=
    mover_first_in_first_out { thresh := 2 } benchEnv (by decide) .empty rfl benchRun s hrun
  exact ⟨s, hrun, hleft, hcreated, hpfx, hnewest _ (by rw [hcreated]; rfl)⟩

end SeerSensor.RingOrder
