/-
`seer-zeek.sh`: start, stop and restart of Zeek in the background, command by
command. Any number of invocations interleave, a script may be killed between
any two commands, and a Zeek may end at any time.

`start` locks the file behind `LOCKFILE`, and the Zeek it spawns inherits the
descriptor, so that the lock is held for as long as that Zeek lives. That alone
keeps a second one from being started. But the lock is on the inode, and
`stop` removes the name without taking the lock: a `start` that comes after it
makes a new file and locks that, while another is still on its way between its
own lock and the write of `PIDFILE`, or has left a Zeek that does not end at
once. `single_zeek` says that nothing else goes wrong.
-/
import Mathlib.Data.Option.Basic
import Mathlib.Logic.Function.Basic
import SeerSensor.Lib.Runs

namespace SeerSensor.Zeek

abbrev Pid := Nat

abbrev Inode := Nat

/-- An invocation of the script. -/
abbrev Id := Nat

/-- The argument of the script. -/
inductive Cmd where
  | start
  | stop
  | restart
  deriving DecidableEq

/-- `start_zeek_live` once the lock file is open. -/
inductive StartPc where
  | flock
  /-- `[ -f "$PIDFILE" ]`. -/
  | test
  | cat
  | judge (pid : Option Pid)
  /-- `rm -f "$PIDFILE"`, its Zeek being gone. -/
  | clear
  | spawn
  | write (zpid : Pid)
  /-- `sleep 1`, and is it there? -/
  | check (zpid : Pid)
  /-- It failed to start: `rm -f "$PIDFILE"`. -/
  | undo (zpid : Pid)
  deriving DecidableEq

/-- `stop_zeek`, command by command. -/
inductive StopPc where
  | test
  | cat
  | judge (pid : Option Pid)
  | kill (pid : Pid)
  /-- The five seconds after the signal. -/
  | wait (pid : Pid)
  | clear
  | pkill
  | rmLock
  deriving DecidableEq

/-- Where an invocation is. -/
inductive Pc where
  | unborn
  /-- `again`: a restart, which goes on to start. -/
  | stopping (again : Bool) (pc : StopPc)
  /-- Before `exec 9>"$LOCKFILE"`. -/
  | start
  /-- Descriptor 9 is open on the inode `n`. -/
  | starting (n : Inode) (pc : StartPc)
  | exited
  deriving DecidableEq

/-- The two files, who has a lock, and where each invocation is. -/
structure State where
  /-- What `LOCKFILE` names. -/
  path : Option Inode
  next : Inode
  /-- Whose descriptor, or its Zeek's copy of it, has the lock on an inode. -/
  holder : Inode → Option Id
  /-- `PIDFILE`: none, or a text, which is a PID or is not. -/
  pidfile : Option (Option Pid)
  pc : Id → Pc
  /-- The Zeeks these invocations started that are alive, by PID. -/
  zeeks : Pid → Option Id

/-- The commands of an invocation, as they end. -/
inductive Act where
  | invoke (cmd : Cmd)
  | openLock
  | flock
  | testPid
  | catPid
  | isZeek (answer : Bool)
  | kill
  | kill9
  | rmPid
  | pkill
  | rmLock
  | spawn (zpid : Pid)
  | writePid
  /-- The script is killed, or fails in a command not listed here. -/
  | die
  deriving DecidableEq

/-- Who does something: an invocation, or a Zeek that ends. -/
inductive Label where
  | cmd (i : Id) (a : Act)
  /-- The Zeek ends, by a signal it was sent or of its own. -/
  | exits (pid : Pid)
  deriving DecidableEq

/-- The inode its descriptor is open on. -/
def Pc.fd : Pc → Option Inode
  | .starting n _ => some n
  | _ => none

/-- The inode the invocation has locked. -/
def Pc.locked : Pc → Option Inode
  | .starting _ .flock => none
  | .starting n _ => some n
  | _ => none

/-- The Zeek it has spawned. -/
def Pc.child : Pc → Option Pid
  | .starting _ (.write p) | .starting _ (.check p) | .starting _ (.undo p) => some p
  | _ => none

/-- The invocation `i` goes on to `pc`. -/
def State.goto (s : State) (i : Id) (pc : Pc) : State := { s with pc := Function.update s.pc i pc }

/-- The last copy of the descriptor is closed. -/
def State.release (s : State) (i : Id) : State :=
  { s with holder := fun n => if s.holder n = some i then none else s.holder n }

/-- The script ends; a Zeek of it that is alive keeps the descriptor. -/
def State.exit (s : State) (i : Id) : State :=
  if (s.pc i).child.bind s.zeeks = some i then s.goto i .exited else (s.release i).goto i .exited

/-- The Zeek is gone; its script, if it has not ended, keeps the descriptor. -/
def State.reap (s : State) (p : Pid) : State :=
  match s.zeeks p with
  | none => s
  | some i =>
    let s' := { s with zeeks := Function.update s.zeeks p none }
    if (s.pc i).fd.isSome then s' else s'.release i

/-- `exec 9>"$LOCKFILE"`: the file that is there, or a new one. -/
def State.openLock (s : State) (i : Id) : State :=
  match s.path with
  | some n => s.goto i (.starting n .flock)
  | none => { s with path := some s.next, next := s.next + 1 }.goto i (.starting s.next .flock)

/-- `flock -n 9`. -/
def State.flock (s : State) (i : Id) (n : Inode) : State :=
  match s.holder n with
  | none => { s with holder := Function.update s.holder n (some i) }.goto i (.starting n .test)
  | some _ => s.exit i

/-- What `is_zeek` may say: a Zeek of ours that is alive is one, and any other
process may be. -/
def State.mayAnswer (s : State) (pid : Option Pid) (answer : Bool) : Bool :=
  match pid with
  | none => !answer
  | some p => answer || (s.zeeks p).isNone

/-- One command of the invocation `i`. -/
def State.command (s : State) (i : Id) (a : Act) : Option State :=
  match s.pc i, a with
  | .unborn, .invoke .start => some (s.goto i .start)
  | .unborn, .invoke .stop => some (s.goto i (.stopping false .test))
  | .unborn, .invoke .restart => some (s.goto i (.stopping true .test))
  | .unborn, _ => none
  | .exited, _ => none
  | _, .die => some (s.exit i)
  | .start, .openLock => some (s.openLock i)
  | .starting n .flock, .flock => some (s.flock i n)
  | .starting n .test, .testPid =>
    some (s.goto i (.starting n (if s.pidfile.isSome then .cat else .spawn)))
  -- a file that has gone reads as an empty one
  | .starting n .cat, .catPid => some (s.goto i (.starting n (.judge s.pidfile.join)))
  | .starting n (.judge pid), .isZeek answer =>
    if s.mayAnswer pid answer then
      some (if answer then s.exit i else s.goto i (.starting n .clear))
    else none
  | .starting n .clear, .rmPid => some ({ s with pidfile := none }.goto i (.starting n .spawn))
  | .starting n .spawn, .spawn p =>
    if s.zeeks p = none then
      some ({ s with zeeks := Function.update s.zeeks p (some i) }.goto i (.starting n (.write p)))
    else none
  | .starting n (.write p), .writePid =>
    some ({ s with pidfile := some (some p) }.goto i (.starting n (.check p)))
  | .starting n (.check p), .isZeek answer =>
    if s.mayAnswer (some p) answer then
      some (if answer then s.exit i else s.goto i (.starting n (.undo p)))
    else none
  | .starting _ (.undo _), .rmPid => some ({ s with pidfile := none }.exit i)
  | .stopping again .test, .testPid =>
    some (s.goto i (.stopping again (if s.pidfile.isSome then .cat else .pkill)))
  | .stopping again .cat, .catPid => some (s.goto i (.stopping again (.judge s.pidfile.join)))
  | .stopping again (.judge pid), .isZeek answer =>
    if s.mayAnswer pid answer then
      some (s.goto i (.stopping again (match pid, answer with
        | some p, true => .kill p
        | _, _ => .clear)))
    else none
  -- a signal ends nothing by itself: what it leads to is a later `exits`
  | .stopping again (.kill p), .kill => some (s.goto i (.stopping again (.wait p)))
  | .stopping again (.wait p), .isZeek answer =>
    if s.mayAnswer (some p) answer then
      some (s.goto i (.stopping again (if answer then .wait p else .clear)))
    else none
  | .stopping again (.wait p), .kill9 => some ((s.reap p).goto i (.stopping again .clear))
  | .stopping again .clear, .rmPid =>
    some ({ s with pidfile := none }.goto i (.stopping again .pkill))
  | .stopping again .pkill, .pkill => some (s.goto i (.stopping again .rmLock))
  | .stopping again .rmLock, .rmLock =>
    some ({ s with path := none }.goto i (if again then .start else .exited))
  | _, _ => none

/-- One command of an invocation, or the end of a Zeek. -/
def step (s : State) : Label → Option State
  | .cmd i a => s.command i a
  | .exits p => if (s.zeeks p).isSome then some (s.reap p) else none

/-- No script has run; the two files may be left over from any time before. -/
structure Start (s : State) : Prop where
  pc : ∀ i, s.pc i = .unborn
  zeeks : ∀ p, s.zeeks p = none
  holder : ∀ n, s.holder n = none
  next : ∀ n, s.path = some n → n < s.next

/-- No two of the Zeeks are alive together. -/
def Single (s : State) : Prop := ∀ p q, s.zeeks p ≠ none → s.zeeks q ≠ none → p = q

/-- **The lock file goes when nobody relies on it.** Where it is removed, no
start is between its `exec 9>` and its end, and no Zeek is alive. -/
def LockIdle (s : State) : Label → Prop
  | .cmd _ .rmLock => s.path ≠ none → (∀ i, (s.pc i).fd = none) ∧ ∀ p, s.zeeks p = none
  | _ => True

/-! ## What the lock protects -/

/-- Every descriptor is open on the file `LOCKFILE` names; past its `flock` a
start holds the lock on it, and so does the one whose Zeek is alive. -/
structure Inv (s : State) : Prop where
  fd : ∀ i n, (s.pc i).fd = some n → s.path = some n
  locked : ∀ i n, (s.pc i).locked = some n → s.holder n = some i
  zeek : ∀ p i, s.zeeks p = some i → ∃ n, s.path = some n ∧ s.holder n = some i
  child : ∀ p i, s.zeeks p = some i → (s.pc i).child = some p ∨ s.pc i = .exited
  one : ∀ p q i, s.zeeks p = some i → s.zeeks q = some i → p = q

theorem Start.inv {s : State} (h : Start s) : Inv s where
  fd i n hn := by rw [h.pc] at hn; cases hn
  locked i n hn := by rw [h.pc] at hn; cases hn
  zeek p i hp := by rw [h.zeeks] at hp; cases hp
  child p i hp := by rw [h.zeeks] at hp; cases hp
  one p q i hp := by rw [h.zeeks] at hp; cases hp

/-- Two Zeeks alive would be two holders of one lock. -/
theorem Inv.single {s : State} (h : Inv s) : Single s := by
  intro p q hp hq
  obtain ⟨i, hi⟩ := Option.ne_none_iff_exists'.mp hp
  obtain ⟨j, hj⟩ := Option.ne_none_iff_exists'.mp hq
  obtain ⟨n, hn, hheld⟩ := h.zeek p i hi
  obtain ⟨m, hm, hheld'⟩ := h.zeek q j hj
  cases hn.symm.trans hm
  cases hheld.symm.trans hheld'
  exact h.one p q i hi hj

section
variable {s s' : State} {i : Id} {n : Inode} {p : Pid} {pc : Pc}

theorem Pc.fd_of_locked (h : pc.locked = some n) : pc.fd = some n := by
  unfold Pc.locked at h
  split at h
  · cases h
  · cases h; rfl
  · cases h

theorem Inv.pidfile (h : Inv s) (text : Option (Option Pid)) : Inv { s with pidfile := text } :=
  ⟨h.fd, h.locked, h.zeek, h.child, h.one⟩

theorem Inv.no_zeek (h : Inv s) (hchild : (s.pc i).child = none) (hpc : s.pc i ≠ .exited) (p : Pid) :
    s.zeeks p ≠ some i := by
  intro hp
  rcases h.child p i hp with hc | he
  · cases hchild.symm.trans hc
  · exact hpc he

/-- An invocation moves on: it keeps the Zeek it has, and the lock it says it has. -/
theorem Inv.goto (h : Inv s) (hfd : ∀ n, pc.fd = some n → s.path = some n)
    (hlocked : ∀ n, pc.locked = some n → s.holder n = some i)
    (hchild : ∀ p, s.zeeks p = some i → pc.child = some p ∨ pc = .exited) : Inv (s.goto i pc) := by
  refine ⟨fun j n hn => ?_, fun j n hn => ?_, h.zeek, fun p j hp => ?_, h.one⟩
  · by_cases hj : j = i
    · subst hj
      exact hfd n (by simpa [State.goto] using hn)
    · exact h.fd j n (by simpa [State.goto, hj] using hn)
  · by_cases hj : j = i
    · subst hj
      exact hlocked n (by simpa [State.goto] using hn)
    · exact h.locked j n (by simpa [State.goto, hj] using hn)
  · by_cases hj : j = i
    · subst hj
      simpa [State.goto] using hchild p hp
    · simpa [State.goto, hj] using h.child p j hp

theorem Inv.goto_closed (h : Inv s) (hchild : (s.pc i).child = none) (hpc : s.pc i ≠ .exited)
    (hfd : pc.fd = none) : Inv (s.goto i pc) := by
  refine h.goto (fun m hm => ?_) (fun m hm => ?_) fun q hq => ?_
  · cases hfd.symm.trans hm
  · cases hfd.symm.trans (Pc.fd_of_locked hm)
  · exact absurd hq (h.no_zeek hchild hpc q)

theorem Inv.goto_stopping {again : Bool} {at' : StopPc} (h : Inv s)
    (hpc : s.pc i = .stopping again at') (hfd : pc.fd = none) : Inv (s.goto i pc) :=
  h.goto_closed (by rw [hpc]; rfl) (by simp [hpc]) hfd

theorem Inv.goto_locked {at' at'' : StartPc} (h : Inv s) (hpc : s.pc i = .starting n at')
    (hflock : at' ≠ .flock) (hchild : ∀ p, (Pc.starting n at').child = some p →
      (Pc.starting n at'').child = some p) : Inv (s.goto i (.starting n at'')) := by
  have hlocked : (s.pc i).locked = some n := by
    rw [hpc]
    cases at' <;> first | rfl | exact absurd rfl hflock
  refine h.goto (fun m hm => ?_) (fun m hm => ?_) fun q hq => ?_
  · cases hm
    exact h.fd i n (Pc.fd_of_locked hlocked)
  · cases Pc.fd_of_locked hm
    exact h.locked i n hlocked
  · rcases h.child q i hq with hc | he
    · exact .inl (hchild q (hpc ▸ hc))
    · rw [hpc] at he; cases he

/-- The lock of `i` is given up once neither it nor a Zeek of it is there. -/
theorem Inv.release (h : Inv s) (hlocked : (s.pc i).locked = none) (hzeek : ∀ p, s.zeeks p ≠ some i) :
    Inv (s.release i) := by
  have hkept : ∀ j n, j ≠ i → s.holder n = some j → (s.release i).holder n = some j := by
    intro j n hj hn
    simp [State.release, hn, hj]
  refine ⟨h.fd, fun j n hn => ?_, fun p j hp => ?_, h.child, h.one⟩
  · refine hkept j n ?_ (h.locked j n hn)
    rintro rfl
    cases hlocked.symm.trans hn
  · obtain ⟨m, hm, hheld⟩ := h.zeek p j hp
    refine ⟨m, hm, hkept j m ?_ hheld⟩
    rintro rfl
    exact hzeek p hp

theorem Inv.exit (h : Inv s) (hpc : s.pc i ≠ .exited) : Inv (s.exit i) := by
  unfold State.exit
  have hgone : Inv (s.goto i .exited) := h.goto nofun nofun fun _ _ => .inr rfl
  split
  · exact hgone
  · next hchild =>
    refine hgone.release (by simp [State.goto, Pc.locked]) fun p hp => hchild ?_
    rcases h.child p i hp with hc | he
    · rw [hc]; exact hp
    · exact absurd he hpc

theorem reap_pc (s : State) (p : Pid) : (s.reap p).pc = s.pc := by
  unfold State.reap
  split
  · rfl
  · dsimp only
    split <;> rfl

theorem Inv.reap (h : Inv s) (p : Pid) : Inv (s.reap p) := by
  unfold State.reap
  split
  · exact h
  · next i hp =>
    have hsub : ∀ q j, Function.update s.zeeks p none q = some j → q ≠ p ∧ s.zeeks q = some j := by
      intro q j hq
      by_cases hqp : q = p
      · simp [hqp] at hq
      · exact ⟨hqp, by simpa [hqp] using hq⟩
    have hgone : Inv { s with zeeks := Function.update s.zeeks p none } :=
      ⟨h.fd, h.locked, fun q j hq => h.zeek q j (hsub q j hq).2,
        fun q j hq => h.child q j (hsub q j hq).2,
        fun q r j hq hr => h.one q r j (hsub q j hq).2 (hsub r j hr).2⟩
    dsimp only
    split
    · exact hgone
    · next hfd =>
      refine hgone.release ?_ fun q hq => ?_
      · cases hl : (s.pc i).locked with
        | none => rfl
        | some n => simp [Pc.fd_of_locked hl] at hfd
      · obtain ⟨hqp, hq⟩ := hsub q i hq
        exact hqp (h.one q p i hq hp)

theorem Inv.openLock (h : Inv s) (hpc : s.pc i = .start) : Inv (s.openLock i) := by
  have hchild := h.no_zeek (i := i) (by rw [hpc]; rfl) (by simp [hpc])
  unfold State.openLock
  split
  · next n hn =>
    exact h.goto (fun m hm => by cases hm; exact hn) nofun fun p hp => absurd hp (hchild p)
  · next hnone =>
    -- nothing is open and no Zeek is alive when there is no file
    have hfd : ∀ j n, (s.pc j).fd ≠ some n := fun j n hn => by cases hnone.symm.trans (h.fd j n hn)
    have hzeek : ∀ q j, s.zeeks q ≠ some j := fun q j hq => by
      obtain ⟨n, hn, -⟩ := h.zeek q j hq
      cases hnone.symm.trans hn
    have hnew : Inv { s with path := some s.next, next := s.next + 1 } :=
      ⟨fun j n hn => absurd hn (hfd j n), h.locked, fun q j hq => absurd hq (hzeek q j), h.child, h.one⟩
    exact hnew.goto (fun m hm => hm) nofun fun p hp => absurd hp (hchild p)

theorem Inv.flock (h : Inv s) (hpc : s.pc i = .starting n .flock) : Inv (s.flock i n) := by
  unfold State.flock
  split
  · next hfree =>
    have hkept : ∀ j m, s.holder m = some j → Function.update s.holder n (some i) m = some j := by
      intro j m hm
      have hmn : m ≠ n := by
        rintro rfl
        cases hfree.symm.trans hm
      simpa [hmn] using hm
    have hheld : Inv { s with holder := Function.update s.holder n (some i) } := by
      refine ⟨h.fd, fun j m hm => hkept j m (h.locked j m hm), fun q j hq => ?_, h.child, h.one⟩
      obtain ⟨m, hm, hheld⟩ := h.zeek q j hq
      exact ⟨m, hm, hkept j m hheld⟩
    refine hheld.goto (fun m hm => ?_) (fun m hm => ?_) fun q hq => ?_
    · cases hm
      exact h.fd i n (by rw [hpc]; rfl)
    · cases hm
      exact Function.update_self n (some i) s.holder
    · exact absurd hq (h.no_zeek (by rw [hpc]; rfl) (by simp [hpc]) q)
  · exact h.exit (by simp [hpc])

theorem Inv.spawn (h : Inv s) (hpc : s.pc i = .starting n .spawn) (hp : s.zeeks p = none) :
    Inv ({ s with zeeks := Function.update s.zeeks p (some i) }.goto i (.starting n (.write p))) := by
  have hpath := h.fd i n (by rw [hpc]; rfl)
  have hheld := h.locked i n (by rw [hpc]; rfl)
  have hnew := h.no_zeek (i := i) (by rw [hpc]; rfl) (by simp [hpc])
  have hmoved : Inv (s.goto i (.starting n (.write p))) :=
    h.goto (fun m hm => by cases hm; exact hpath) (fun m hm => by cases hm; exact hheld)
      fun q hq => absurd hq (hnew q)
  have hcases : ∀ q j, Function.update s.zeeks p (some i) q = some j →
      q = p ∧ j = i ∨ j ≠ i ∧ s.zeeks q = some j := by
    intro q j hq
    by_cases hqp : q = p
    · subst hqp
      simp only [Function.update_self, Option.some.injEq] at hq
      exact .inl ⟨rfl, hq.symm⟩
    · simp only [Function.update_of_ne hqp] at hq
      refine .inr ⟨?_, hq⟩
      rintro rfl
      exact hnew q hq
  refine ⟨hmoved.fd, hmoved.locked, fun q j hq => ?_, fun q j hq => ?_, fun q r j hq hr => ?_⟩
  · rcases hcases q j hq with ⟨-, rfl⟩ | ⟨-, hq⟩
    · exact ⟨n, hpath, hheld⟩
    · exact h.zeek q j hq
  · rcases hcases q j hq with ⟨rfl, rfl⟩ | ⟨-, hq⟩
    · left; simp [State.goto, Pc.child]
    · exact hmoved.child q j hq
  · rcases hcases q j hq with ⟨rfl, rfl⟩ | ⟨hj, hq⟩
    · rcases hcases r j hr with ⟨rfl, -⟩ | ⟨hj, -⟩
      · rfl
      · exact absurd rfl hj
    · rcases hcases r j hr with ⟨-, rfl⟩ | ⟨-, hr⟩
      · exact absurd rfl hj
      · exact h.one q r j hq hr

theorem Inv.rmLock {again : Bool} {at' : StopPc} (h : Inv s) (hpc : s.pc i = .stopping again at')
    (hidle : s.path ≠ none → (∀ i, (s.pc i).fd = none) ∧ ∀ p, s.zeeks p = none)
    (hfd : pc.fd = none) :
    Inv ({ s with path := none }.goto i pc) := by
  have hremoved : Inv { s with path := none } := by
    cases hpath : s.path with
    | none => exact ⟨hpath ▸ h.fd, h.locked, hpath ▸ h.zeek, h.child, h.one⟩
    | some n =>
      obtain ⟨hfd, hzeek⟩ := hidle (by simp [hpath])
      refine ⟨fun j m hm => ?_, h.locked, fun q j hq => ?_, h.child, h.one⟩
      · cases (hfd j).symm.trans hm
      · cases (hzeek q).symm.trans hq
  exact hremoved.goto_stopping hpc hfd

theorem step_inv {l : Label} (h : Inv s) (hidle : LockIdle s l) (hstep : step s l = some s') :
    Inv s' := by
  cases l with
  | exits p =>
    simp only [step] at hstep
    split at hstep
    · cases hstep; exact h.reap p
    · cases hstep
  | cmd i a =>
    rw [step] at hstep
    unfold State.command at hstep
    split at hstep
    -- the invocation begins
    · next hpc => cases hstep; exact h.goto_closed (by rw [hpc]; rfl) (by simp [hpc]) rfl
    · next hpc => cases hstep; exact h.goto_closed (by rw [hpc]; rfl) (by simp [hpc]) rfl
    · next hpc => cases hstep; exact h.goto_closed (by rw [hpc]; rfl) (by simp [hpc]) rfl
    · cases hstep
    · cases hstep
    · next hpc => cases hstep; exact h.exit hpc
    -- `start_zeek_live`
    · next hpc => cases hstep; exact h.openLock hpc
    · next hpc => cases hstep; exact h.flock hpc
    · next hpc => cases hstep; exact h.goto_locked hpc (by simp) (by simp [Pc.child])
    · next hpc => cases hstep; exact h.goto_locked hpc (by simp) (by simp [Pc.child])
    · next hpc =>
      cases (Option.ite_none_right_eq_some.mp hstep).2
      split
      · exact h.exit (by simp [hpc])
      · exact h.goto_locked hpc (by simp) (by simp [Pc.child])
    · next hpc => cases hstep; exact (h.pidfile _).goto_locked hpc (by simp) (by simp [Pc.child])
    · next hpc =>
      obtain ⟨hfree, hstep⟩ := Option.ite_none_right_eq_some.mp hstep
      cases hstep
      exact h.spawn hpc hfree
    · next hpc => cases hstep; exact (h.pidfile _).goto_locked hpc (by simp) (by simp [Pc.child])
    · next hpc =>
      cases (Option.ite_none_right_eq_some.mp hstep).2
      split
      · exact h.exit (by simp [hpc])
      · exact h.goto_locked hpc (by simp) (by simp [Pc.child])
    · next hpc => cases hstep; exact (h.pidfile _).exit (by simp [hpc])
    -- `stop_zeek`
    · next hpc => cases hstep; exact h.goto_stopping hpc rfl
    · next hpc => cases hstep; exact h.goto_stopping hpc rfl
    · next hpc =>
      cases (Option.ite_none_right_eq_some.mp hstep).2
      exact h.goto_stopping hpc rfl
    · next hpc => cases hstep; exact h.goto_stopping hpc rfl
    · next hpc =>
      cases (Option.ite_none_right_eq_some.mp hstep).2
      exact h.goto_stopping hpc rfl
    · next p hpc =>
      cases hstep
      exact (h.reap p).goto_stopping ((congrFun (reap_pc s p) i).trans hpc) rfl
    · next hpc => cases hstep; exact (h.pidfile none).goto_stopping hpc rfl
    · next hpc => cases hstep; exact h.goto_stopping hpc rfl
    · next again hpc => cases hstep; exact h.rmLock hpc hidle (by cases again <;> rfl)
    · cases hstep

end

/-- **At most one Zeek.** In every run of any number of starts, stops and
restarts, however they interleave and wherever they are killed, in which the
lock file is removed only while nobody relies on it, no two Zeeks are ever
alive together. -/
theorem single_zeek (s : State) (hs : Start s) (ls : List Label) (hidle : Runs.Meets step LockIdle s ls) :
    Runs.Always step Single s ls :=
  (Runs.always_of_meets (fun _ _ _ h hl hstep => step_inv h hl hstep) hs.inv hidle).mono
    fun _ h => h.single

/-- No script has run; a lock file is left from before. -/
def benchStart : State where
  path := some 0
  next := 1
  holder := fun _ => none
  pidfile := none
  pc := fun _ => .unborn
  zeeks := fun _ => none

/-- The commands of one invocation, in order. -/
def cmds (i : Id) (as : List Act) : List Label := as.map (.cmd i)

/-- A stop removes the lock file with nothing running, and a start comes after it. -/
theorem single_zeek_stop_start :
    ∃ s, Runs.run step benchStart (cmds 0 [.invoke .stop, .testPid, .pkill, .rmLock] ++
        cmds 1 [.invoke .start, .openLock, .flock, .testPid, .spawn 100, .writePid]) = some s ∧
      s.zeeks 100 = some 1 ∧ s.pidfile = some (some 100) ∧ Single s := by
  have hran : (Runs.run step benchStart (cmds 0 [.invoke .stop, .testPid, .pkill, .rmLock] ++
      cmds 1 [.invoke .start, .openLock, .flock, .testPid, .spawn 100, .writePid])).map
      (fun s => (s.zeeks 100, s.pidfile)) = some (some 1, some (some 100)) := by
    decide +kernel
  have hstart : Start benchStart :=
    ⟨fun _ => rfl, fun _ => rfl, fun _ => rfl, fun n hn => by cases hn; decide⟩
  have hidle : Runs.Meets step LockIdle benchStart
      (cmds 0 [.invoke .stop, .testPid, .pkill, .rmLock] ++
        cmds 1 [.invoke .start, .openLock, .flock, .testPid, .spawn 100, .writePid]) := by
    refine fun s₁ h₁ => ⟨trivial, fun s₂ h₂ => ⟨trivial, fun s₃ h₃ => ⟨trivial, fun s₄ h₄ => ⟨?_, ?_⟩⟩⟩⟩
    · cases h₁
      cases h₂
      cases h₃
      refine fun _ => ⟨fun i => ?_, fun _ => rfl⟩
      by_cases hi : i = 0
      · subst hi; rfl
      · simp [State.goto, benchStart, Pc.fd, hi]
    · exact fun s₅ h₅ => ⟨trivial, fun s₆ h₆ => ⟨trivial, fun s₇ h₇ => ⟨trivial, fun s₈ h₈ =>
        ⟨trivial, fun s₉ h₉ => ⟨trivial, fun _ _ => ⟨trivial, trivial⟩⟩⟩⟩⟩⟩
  obtain ⟨s, hrun, hs⟩ := Option.map_eq_some_iff.mp hran
  obtain ⟨hzeek, hpid⟩ := Prod.mk.injEq .. ▸ hs
  exact ⟨s, hrun, hzeek, hpid, (single_zeek benchStart hstart _ hidle).last hrun⟩

/-- A stop removes the lock file under a start that has it, and the next start
locks a new one before the first has written `PIDFILE`. -/
theorem two_zeeks :
    ∃ s, Runs.run step benchStart
        (cmds 0 [.invoke .start, .openLock, .flock, .testPid] ++
          cmds 1 [.invoke .stop, .testPid, .pkill, .rmLock] ++ cmds 0 [.spawn 100] ++
          cmds 2 [.invoke .start, .openLock, .flock, .testPid, .spawn 200]) = some s ∧
      s.zeeks 100 = some 0 ∧ s.zeeks 200 = some 2 ∧ ¬ Single s := by
  have hran : (Runs.run step benchStart
      (cmds 0 [.invoke .start, .openLock, .flock, .testPid] ++
        cmds 1 [.invoke .stop, .testPid, .pkill, .rmLock] ++ cmds 0 [.spawn 100] ++
        cmds 2 [.invoke .start, .openLock, .flock, .testPid, .spawn 200])).map
      (fun s => (s.zeeks 100, s.zeeks 200)) = some (some 0, some 2) := by
    decide +kernel
  obtain ⟨s, hrun, hs⟩ := Option.map_eq_some_iff.mp hran
  obtain ⟨h100, h200⟩ := Prod.mk.injEq .. ▸ hs
  refine ⟨s, hrun, h100, h200, fun hsingle => ?_⟩
  exact absurd (hsingle 100 200 (by simp [h100]) (by simp [h200])) (by decide)

end SeerSensor.Zeek
