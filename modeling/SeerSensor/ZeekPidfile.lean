/-
The rest of `seer-zeek.sh`: `status`, which reads `PIDFILE` and removes a stale
one without taking the lock, and the start under systemd, which becomes Zeek
itself (`exec zeek`) and writes no `PIDFILE`.

`PIDFILE` is written by a start that has the lock and had none before it, so
while a Zeek is alive the file can only be the one its own start wrote. It may
well be missing: `stop` and `status` remove what they have read to be stale, and
by then it may be another.
-/
import SeerSensor.Lib.Refine
import SeerSensor.Zeek

namespace SeerSensor.Zeek

/-- Where a `status` is. -/
inductive StatusPc where
  | test
  | cat
  | judge (pid : Option Pid)
  /-- `rm -f "$PIDFILE"`, the file being stale. -/
  | clear
  /-- No file: `pgrep -x zeek`. -/
  | pgrep
  deriving DecidableEq

/-- The commands of `status_zeek`, as they end. -/
inductive StatusAct where
  | invoke
  | testPid
  | catPid
  | isZeek (answer : Bool)
  | rmPid
  | pgrep
  | die
  deriving DecidableEq

/-- The scripts and Zeeks, and the `status` invocations beside them. -/
structure Service where
  base : State
  watch : Id → Option StatusPc

/-- What happens at the service. -/
inductive Event where
  | script (l : Label)
  /-- `exec zeek`: the script is Zeek from here on. -/
  | exec (i : Id) (p : Pid)
  | status (j : Id) (a : StatusAct)
  deriving DecidableEq

/-- The process keeps its descriptors, and with them the lock. -/
def State.exec (s : State) (i : Id) (p : Pid) : Option State :=
  match s.pc i with
  | .starting _ .spawn =>
    if s.zeeks p = none then
      some ({ s with zeeks := Function.update s.zeeks p (some i) }.goto i .exited)
    else none
  | _ => none

/-- The invocation `j` of `status` goes on to `pc`. -/
def Service.goto (s : Service) (j : Id) (pc : Option StatusPc) : Service :=
  { s with watch := Function.update s.watch j pc }

/-- One command of `status_zeek`. -/
def Service.status (s : Service) (j : Id) (a : StatusAct) : Option Service :=
  match s.watch j, a with
  | none, .invoke => some (s.goto j (some .test))
  | none, _ => none
  | some _, .die => some (s.goto j none)
  | some .test, .testPid => some (s.goto j (some (if s.base.pidfile.isSome then .cat else .pgrep)))
  | some .cat, .catPid => some (s.goto j (some (.judge s.base.pidfile.join)))
  | some (.judge pid), .isZeek answer =>
    if s.base.mayAnswer pid answer then some (s.goto j (if answer then none else some .clear)) else none
  | some .clear, .rmPid => some ({ s with base := { s.base with pidfile := none } }.goto j none)
  | some .pgrep, .pgrep => some (s.goto j none)
  | some _, _ => none

/-- `systemd i`: the invocation runs with `SYSTEMD=1`. -/
def serve (systemd : Id → Bool) (s : Service) : Event → Option Service
  | .script (.cmd i (.spawn p)) =>
    if systemd i then none else (step s.base (.cmd i (.spawn p))).map fun b => { s with base := b }
  | .script l => (step s.base l).map fun b => { s with base := b }
  | .exec i p => if systemd i then (s.base.exec i p).map fun b => { s with base := b } else none
  | .status j a => s.status j a

/-- `LockIdle`, of the scripts. -/
def Service.LockIdle (s : Service) : Event → Prop
  | .script l => Zeek.LockIdle s.base l
  | _ => True

/-- Between the removal of a stale `PIDFILE` and the write of the new one. -/
def Pc.unwritten : Pc → Bool
  | .starting _ .spawn | .starting _ (.write _) => true
  | _ => false

/-- `PIDFILE` is missing where a start is about to write it, and where a Zeek is
alive it holds that Zeek's PID or is missing. -/
structure Named (s : State) : Prop where
  unwritten : ∀ i, (s.pc i).unwritten = true → s.pidfile = none
  alive : ∀ p i, s.zeeks p = some i → s.pidfile = none ∨ s.pidfile = some (some p)

section
variable {s s' : State} {i : Id} {n : Inode} {p : Pid} {pc : Pc}

theorem Start.named (h : Start s) : Named s where
  unwritten i hi := by rw [h.pc] at hi; cases hi
  alive p i hp := by rw [h.zeeks] at hp; cases hp

theorem Named.of_missing (h : s.pidfile = none) : Named s :=
  ⟨fun _ _ => h, fun _ _ _ => .inl h⟩

/-- No new Zeek, and no start that is newly about to write. -/
theorem Named.mono (h : Named s) (hpid : s'.pidfile = s.pidfile)
    (hzeeks : ∀ p i, s'.zeeks p = some i → s.zeeks p = some i)
    (hpc : ∀ i, (s'.pc i).unwritten = true → (s.pc i).unwritten = true ∨ s.pidfile = none) : Named s' := by
  constructor
  · intro i hi
    rw [hpid]
    exact (hpc i hi).elim (h.unwritten i) id
  · intro p i hp
    rw [hpid]
    exact h.alive p i (hzeeks p i hp)

theorem Named.goto (h : Named s) (hpc : pc.unwritten = true → s.pidfile = none) : Named (s.goto i pc) := by
  refine h.mono rfl (fun _ _ hp => hp) fun j hj => ?_
  by_cases hji : j = i
  · subst hji
    exact .inr (hpc (by simpa [State.goto] using hj))
  · exact .inl (by simpa [State.goto, hji] using hj)

theorem Named.goto_written (h : Named s) (hpc : pc.unwritten = false) : Named (s.goto i pc) :=
  h.goto fun hun => by cases hpc.symm.trans hun

theorem Named.exit (h : Named s) : Named (s.exit i) := by
  have hgone : Named (s.goto i .exited) := h.goto_written rfl
  unfold State.exit
  split
  · exact hgone
  · exact hgone.mono rfl (fun _ _ hp => hp) fun _ hj => .inl hj

theorem Named.reap (h : Named s) (p : Pid) : Named (s.reap p) := by
  unfold State.reap
  split
  · exact h
  · have hfewer : ∀ q i, Function.update s.zeeks p none q = some i → s.zeeks q = some i := by
      intro q i hq
      by_cases hqp : q = p
      · simp [hqp] at hq
      · simpa [hqp] using hq
    dsimp only
    split <;> exact h.mono rfl hfewer fun _ hj => .inl hj

theorem Named.openLock (h : Named s) : Named (s.openLock i) := by
  unfold State.openLock
  split
  · exact h.goto_written rfl
  · refine Named.goto_written ?_ rfl
    exact h.mono rfl (fun _ _ hp => hp) fun _ hj => .inl hj

theorem Named.flock (h : Named s) : Named (s.flock i n) := by
  unfold State.flock
  split
  · refine Named.goto_written ?_ rfl
    exact h.mono rfl (fun _ _ hp => hp) fun _ hj => .inl hj
  · exact h.exit

theorem Named.spawn (h : Named s) (hpc : s.pc i = .starting n .spawn) (pc : Pc) :
    Named ({ s with zeeks := Function.update s.zeeks p (some i) }.goto i pc) :=
  .of_missing (h.unwritten i (by rw [hpc]; rfl))

theorem Pc.locked_of_unwritten (h : pc.unwritten = true) : ∃ n, pc.locked = some n := by
  unfold Pc.unwritten at h
  split at h
  · exact ⟨_, rfl⟩
  · exact ⟨_, rfl⟩
  · cases h

/-- Whoever is past its `flock` is the only one, and the Zeek alive is its own. -/
theorem Inv.owner (hinv : Inv s) (hi : (s.pc i).locked = some n) :
    (∀ j m, (s.pc j).locked = some m → j = i) ∧ ∀ p j, s.zeeks p = some j → j = i := by
  have hpath := hinv.fd i n (Pc.fd_of_locked hi)
  have hheld := hinv.locked i n hi
  constructor
  · intro j m hj
    cases hpath.symm.trans (hinv.fd j m (Pc.fd_of_locked hj))
    cases hheld.symm.trans (hinv.locked j n hj)
    rfl
  · intro p j hp
    obtain ⟨m, hm, hheld'⟩ := hinv.zeek p j hp
    cases hpath.symm.trans hm
    cases hheld.symm.trans hheld'
    rfl

theorem Named.write (hinv : Inv s) (hpc : s.pc i = .starting n (.write p)) :
    Named ({ s with pidfile := some (some p) }.goto i (.starting n (.check p))) := by
  have hlocked : (s.pc i).locked = some n := by rw [hpc]; rfl
  obtain ⟨honly, hzeek⟩ := hinv.owner hlocked
  constructor
  · intro j hj
    exfalso
    by_cases hji : j = i
    · subst hji
      simp [State.goto, Pc.unwritten] at hj
    · have hj' : (s.pc j).unwritten = true := by simpa [State.goto, hji] using hj
      obtain ⟨m, hm⟩ := Pc.locked_of_unwritten hj'
      exact hji (honly j m hm)
  · intro q j hq
    obtain rfl := hzeek q j hq
    right
    rcases hinv.child q j hq with hc | he
    · rw [hpc] at hc
      cases hc
      rfl
    · rw [hpc] at he
      cases he

theorem step_named {l : Label} (hinv : Inv s) (h : Named s) (hstep : step s l = some s') : Named s' := by
  cases l with
  | exits p =>
    simp only [step] at hstep
    split at hstep
    · cases hstep; exact h.reap p
    · cases hstep
  | cmd i a =>
    rw [step] at hstep
    unfold State.command at hstep
    split at hstep
    -- the invocation begins, or is killed
    · cases hstep; exact h.goto_written rfl
    · cases hstep; exact h.goto_written rfl
    · cases hstep; exact h.goto_written rfl
    · cases hstep
    · cases hstep
    · cases hstep; exact h.exit
    -- `start_zeek_live`
    · cases hstep; exact h.openLock
    · cases hstep; exact h.flock
    · cases hstep
      refine h.goto fun hun => ?_
      cases hpid : s.pidfile with
      | none => rfl
      | some text => simp [hpid, Pc.unwritten] at hun
    · cases hstep; exact h.goto_written rfl
    · cases (Option.ite_none_right_eq_some.mp hstep).2
      split
      · exact h.exit
      · exact h.goto_written rfl
    · cases hstep; exact .of_missing rfl
    · next hpc =>
      cases (Option.ite_none_right_eq_some.mp hstep).2
      exact h.spawn hpc _
    · next hpc => cases hstep; exact .write hinv hpc
    · cases (Option.ite_none_right_eq_some.mp hstep).2
      split
      · exact h.exit
      · exact h.goto_written rfl
    · cases hstep; exact (Named.of_missing rfl).exit
    -- `stop_zeek`
    · cases hstep; exact h.goto_written rfl
    · cases hstep; exact h.goto_written rfl
    · cases (Option.ite_none_right_eq_some.mp hstep).2
      exact h.goto_written rfl
    · cases hstep; exact h.goto_written rfl
    · cases (Option.ite_none_right_eq_some.mp hstep).2
      exact h.goto_written rfl
    · cases hstep; exact (h.reap _).goto_written rfl
    · cases hstep; exact .of_missing rfl
    · cases hstep; exact h.goto_written rfl
    · next again _ =>
      cases hstep
      refine Named.goto_written ?_ (by cases again <;> rfl)
      exact h.mono rfl (fun _ _ hp => hp) fun _ hj => .inl hj
    · cases hstep

theorem exec_eq (hexec : s.exec i p = some s') :
    ∃ n s₁, s.pc i = .starting n .spawn ∧ step s (.cmd i (.spawn p)) = some s₁ ∧
      step s₁ (.cmd i .die) = some s' := by
  unfold State.exec at hexec
  split at hexec
  · next n hpc =>
    obtain ⟨hfree, hexec⟩ := Option.ite_none_right_eq_some.mp hexec
    cases hexec
    have hspawn : step s (.cmd i (.spawn p)) =
        some ({ s with zeeks := Function.update s.zeeks p (some i) }.goto i (.starting n (.write p))) := by
      simp [step, State.command, hpc, hfree]
    refine ⟨n, _, hpc, hspawn, ?_⟩
    simp [step, State.command, State.exit, State.goto, Pc.child]
  · cases hexec

theorem status_base {s s' : Service} {j : Id} {a : StatusAct} (h : s.status j a = some s') :
    s'.base = s.base ∨ s'.base = { s.base with pidfile := none } := by
  unfold Service.status at h
  split at h
  · cases h; exact .inl rfl
  · cases h
  · cases h; exact .inl rfl
  · cases h; exact .inl rfl
  · cases h; exact .inl rfl
  · cases (Option.ite_none_right_eq_some.mp h).2; exact .inl rfl
  · cases h; exact .inr rfl
  · cases h; exact .inl rfl
  · cases h

end

/-- What an event does to the scripts and Zeeks: nothing but to `PIDFILE`, a step of
theirs, or two. -/
theorem serve_cases {systemd : Id → Bool} {s s' : Service} {e : Event}
    (h : serve systemd s e = some s') :
    s'.base = s.base ∨ s'.base = { s.base with pidfile := none } ∨
      (∃ l, e = .script l ∧ step s.base l = some s'.base) ∨
      ∃ i p s₁, step s.base (.cmd i (.spawn p)) = some s₁ ∧ step s₁ (.cmd i .die) = some s'.base := by
  unfold serve at h
  split at h
  · next i p =>
    split at h
    · cases h
    · obtain ⟨b, hb, rfl⟩ := Option.map_eq_some_iff.mp h
      exact .inr (.inr (.inl ⟨_, rfl, hb⟩))
  · next l _ =>
    obtain ⟨b, hb, rfl⟩ := Option.map_eq_some_iff.mp h
    exact .inr (.inr (.inl ⟨l, rfl, hb⟩))
  · next i p =>
    split at h
    · obtain ⟨b, hb, rfl⟩ := Option.map_eq_some_iff.mp h
      obtain ⟨n, s₁, -, hspawn, hdie⟩ := exec_eq hb
      exact .inr (.inr (.inr ⟨i, p, s₁, hspawn, hdie⟩))
    · cases h
  · exact (status_base h).imp_right .inl

theorem serve_inv {systemd : Id → Bool} {s s' : Service} {e : Event} (hinv : Inv s.base)
    (hnamed : Named s.base) (hidle : s.LockIdle e) (h : serve systemd s e = some s') :
    Inv s'.base ∧ Named s'.base := by
  rcases serve_cases h with hsame | hmissing | ⟨l, rfl, hstep⟩ | ⟨i, p, s₁, hspawn, hdie⟩
  · rw [hsame]
    exact ⟨hinv, hnamed⟩
  · rw [hmissing]
    exact ⟨hinv.pidfile none, .of_missing rfl⟩
  · exact ⟨step_inv hinv hidle hstep, step_named hinv hnamed hstep⟩
  · have hinv₁ := step_inv (l := .cmd i (.spawn p)) hinv trivial hspawn
    have hnamed₁ := step_named hinv hnamed hspawn
    exact ⟨step_inv (l := .cmd i .die) hinv₁ trivial hdie, step_named hinv₁ hnamed₁ hdie⟩

/-- **`PIDFILE` never names the wrong process.** In every run of starts in the
background and under systemd, stops, restarts and statuses, however they
interleave, from any `PIDFILE` left over from before, and with the lock file
removed only while nobody relies on it: no two Zeeks are alive together, and while
one is, `PIDFILE` holds its PID or is missing. -/
theorem pidfile_names_zeek (systemd : Id → Bool) (s : Service) (hs : Start s.base) (es : List Event)
    (hidle : Runs.Meets (serve systemd) Service.LockIdle s es) :
    Runs.Always (serve systemd) (fun s => Single s.base ∧ ∀ p, s.base.zeeks p ≠ none →
      s.base.pidfile = none ∨ s.base.pidfile = some (some p)) s es := by
  have hall : Runs.Always (serve systemd) (fun s => Inv s.base ∧ Named s.base) s es :=
    Runs.always_of_meets (fun _ _ _ h hidle hstep => serve_inv h.1 h.2 hidle hstep)
      ⟨hs.inv, hs.named⟩ hidle
  refine hall.mono fun s ⟨hinv, hnamed⟩ => ⟨hinv.single, fun p hp => ?_⟩
  obtain ⟨i, hi⟩ := Option.ne_none_iff_exists'.mp hp
  exact hnamed.alive p i hi

/-- A `status` reads the PID of a Zeek that has gone; a start puts its own in
place; and the `status` removes that. -/
def benchEvents : List Event :=
  [.status 0 .invoke, .status 0 .testPid, .status 0 .catPid, .status 0 (.isZeek false)] ++
    (cmds 1 [.invoke .start, .openLock, .flock, .testPid, .catPid, .isZeek false, .rmPid, .spawn 100,
      .writePid, .isZeek true]).map .script ++
    [.status 0 .rmPid]

/-- The event removes no lock file. -/
def Event.keepsLock : Event → Bool
  | .script (.cmd _ .rmLock) => false
  | _ => true

theorem benchEvents_keep_lock : ∀ e ∈ benchEvents, e.keepsLock = true := by decide

theorem pidfile_names_zeek_removed :
    ∃ s, Runs.run (serve fun _ => false)
        { base := { benchStart with pidfile := some (some 7) }, watch := fun _ => none } benchEvents =
        some s ∧
      s.base.zeeks 100 = some 1 ∧ s.base.pidfile = none ∧ Single s.base := by
  have hran : (Runs.run (serve fun _ => false)
      { base := { benchStart with pidfile := some (some 7) }, watch := fun _ => none } benchEvents).map
      (fun s => (s.base.zeeks 100, s.base.pidfile)) = some (some 1, none) := by
    decide +kernel
  have hstart : Start { benchStart with pidfile := some (some 7) } :=
    ⟨fun _ => rfl, fun _ => rfl, fun _ => rfl, fun n hn => by cases hn; decide⟩
  have hidle : Runs.Meets (serve fun _ => false) Service.LockIdle
      { base := { benchStart with pidfile := some (some 7) }, watch := fun _ => none } benchEvents := by
    refine (Runs.meets_of_forall benchEvents_keep_lock _).mono fun s e he => ?_
    cases e with
    | script l =>
      cases l with
      | exits p => trivial
      | cmd i a =>
        cases a with
        | rmLock => cases he
        | _ => trivial
    | exec i p => trivial
    | status j a => trivial
  obtain ⟨s, hrun, hs⟩ := Option.map_eq_some_iff.mp hran
  obtain ⟨hzeek, hpid⟩ := Prod.mk.inj hs
  exact ⟨s, hrun, hzeek, hpid, ((pidfile_names_zeek _ _ hstart _ hidle).last hrun).1⟩

end SeerSensor.Zeek
