/-
The two programs on one file of the backlog: the mover copying it in, operation
by operation, and the exporter taking it out, in any interleaving. They share
no lock. What keeps the exporter off a file that is still being copied is the
age guard: each write sets the modification time to the present, and only the
last operation but one, `copystat`, sets it back to the ring file's.

The invariant is the one sentence behind that: while the mover copies, the
file's modification time is the last write, which is less than
`1.5 * rotate_seconds` ago; so whoever passed the guard found the copy complete.
-/
import Mathlib.Tactic.Linarith
import SeerSensor.ExportBatch
import SeerSensor.Lib.Runs
import SeerSensor.TransferFacts

namespace SeerSensor.ActiveGuard

/-- Where the mover is in `shutil.move` across filesystems. -/
inductive MoverPc where
  | waiting
  /-- `k` bytes are there; the last write was at `last`. -/
  | copying (k : Nat) (last : Time)
  /-- `copystat` is done. -/
  | statted
  | done
  /-- `copystat` raised; the ring file is kept. -/
  | failed
  deriving DecidableEq

/-- Where the exporter is in its turn. -/
inductive ExporterPc where
  | idle
  | listed
  /-- `is_file_active` has returned False. -/
  | passed
  | copied
  | hashedSrc (srcSha : String)
  | hashedDst (srcSha dstSha : String)
  deriving DecidableEq

/-- The files, the clock, and where each program is. -/
structure State where
  fs : FS
  now : Time
  mover : MoverPc := .waiting
  exporter : ExporterPc := .idle
  /-- A transfer has reported success. -/
  success : Bool := false

/-- The clock, the mover's calls and the exporter's. -/
inductive Act where
  | tick (t : Time)
  | create
  | append (n : Nat)
  | copystat
  | unlinkRing
  | glob
  | isFileActive (getmtime : Option String)
  /-- `copy2`, which may stop after some bytes. -/
  | copy2 (torn : Option Nat)
  | hashSrc
  | hashDst
  | unlink
  deriving DecidableEq

/-- When the mover last wrote, while it copies. -/
def MoverPc.lastWrite : MoverPc → Option Time
  | .copying _ last => some last
  | _ => none

/-- The clock does not go back, and while the mover copies it does not reach
the time by which the next write or `copystat` has come. Creating the file counts
as its first write. -/
def mayTick (rotate : ℚ) (s : State) (t : Time) : Prop :=
  s.now ≤ t ∧ ∀ last ∈ s.mover.lastWrite, t < last + rotate * (3 / 2)

instance (rotate : ℚ) (s : State) (t : Time) : Decidable (mayTick rotate s t) :=
  inferInstanceAs (Decidable (_ ∧ _))

/-- The operations of the mover on the file `x`. -/
def moverStep (x : Name) (s : State) : Act → Option State
  | .create =>
    if s.mover = .waiting ∧ (s.fs.read ⟨.ring, x⟩).isSome then
      some { s with fs := s.fs.write ⟨.backlog, x⟩ ⟨[], s.now⟩, mover := .copying 0 s.now }
    else
      none
  | .append n =>
    match s.mover, s.fs.read ⟨.ring, x⟩ with
    | .copying k _, some f =>
      -- a file whose name is gone takes the bytes out of sight
      let fs := match s.fs.read ⟨.backlog, x⟩ with
        | some _ => s.fs.write ⟨.backlog, x⟩ ⟨f.bytes.take (k + n), s.now⟩
        | none => s.fs
      some { s with fs := fs, mover := .copying (k + n) s.now }
    | _, _ => none
  | .copystat =>
    match s.mover, s.fs.read ⟨.ring, x⟩ with
    | .copying k _, some f =>
      if f.bytes.length ≤ k then
        match s.fs.read ⟨.backlog, x⟩ with
        | some g => some { s with fs := s.fs.write ⟨.backlog, x⟩ ⟨g.bytes, f.mtime⟩, mover := .statted }
        | none => some { s with mover := .failed }
      else
        none
    | _, _ => none
  | .unlinkRing =>
    if s.mover = .statted then
      some { s with fs := s.fs.remove ⟨.ring, x⟩, mover := .done }
    else
      none
  | _ => none

/-- The operations of the exporter's turn on `x`; a raise ends the turn. -/
def exporterStep (env : Env) (rotate : ℚ) (x : Name) (dest : Dir) (s : State) : Act → Option State
  | .glob =>
    if s.exporter = .idle then
      some { s with exporter := if (s.fs.read ⟨.backlog, x⟩).isSome then .listed else .idle }
    else
      none
  | .isFileActive getmtime =>
    if s.exporter = .listed then
      some { s with
        exporter := if isFileActive rotate getmtime s.now ⟨.backlog, x⟩ s.fs then .idle else .passed }
    else
      none
  | .copy2 torn =>
    if s.exporter = .passed then
      match s.fs.read ⟨.backlog, x⟩, torn with
      | some g, none => some { s with fs := s.fs.write ⟨dest, x⟩ g, exporter := .copied }
      | some g, some n => some { s with
          fs := s.fs.write ⟨dest, x⟩ ⟨g.bytes.take n, s.now⟩
          exporter := .idle }
      | none, _ => some { s with exporter := .idle }
    else
      none
  | .hashSrc =>
    if s.exporter = .copied then
      some { s with exporter := match s.fs.read ⟨.backlog, x⟩ with
        | some g => .hashedSrc (sha256Of env.sha g.bytes)
        | none => .idle }
    else
      none
  | .hashDst =>
    match s.exporter with
    | .hashedSrc srcSha => some { s with exporter := match s.fs.read ⟨dest, x⟩ with
        | some g => .hashedDst srcSha (sha256Of env.sha g.bytes)
        | none => .idle }
    | _ => none
  | .unlink =>
    match s.exporter with
    | .hashedDst srcSha dstSha =>
      if srcSha ≠ dstSha then
        some { s with fs := s.fs.remove ⟨dest, x⟩, exporter := .idle }
      else
        match s.fs.read ⟨.backlog, x⟩ with
        | some _ => some { s with fs := s.fs.remove ⟨.backlog, x⟩, exporter := .idle, success := true }
        | none => some { s with exporter := .idle }
    | _ => none
  | _ => none

/-- A step of the clock or of one program. -/
def step (env : Env) (rotate : ℚ) (x : Name) (dest : Dir) (s : State) : Act → Option State
  | .tick t => if mayTick rotate s t then some { s with now := t } else none
  | .create => moverStep x s .create
  | .append n => moverStep x s (.append n)
  | .copystat => moverStep x s .copystat
  | .unlinkRing => moverStep x s .unlinkRing
  | a => exporterStep env rotate x dest s a

/-- What a step does, by the place of the program that takes it. -/
inductive Stepped (env : Env) (rotate : ℚ) (x : Name) (dest : Dir) (s : State) : Act → State → Prop
  | tick {t : Time} : mayTick rotate s t → Stepped env rotate x dest s (.tick t) { s with now := t }
  | create : s.mover = .waiting →
      Stepped env rotate x dest s .create
        { s with fs := s.fs.write ⟨.backlog, x⟩ ⟨[], s.now⟩, mover := .copying 0 s.now }
  | append {n k : Nat} {last : Time} {f g : File} : s.mover = .copying k last →
      s.fs.read ⟨.ring, x⟩ = some f → s.fs.read ⟨.backlog, x⟩ = some g →
      Stepped env rotate x dest s (.append n) { s with
        fs := s.fs.write ⟨.backlog, x⟩ ⟨f.bytes.take (k + n), s.now⟩
        mover := .copying (k + n) s.now }
  | appendUnseen {n k : Nat} {last : Time} : s.mover = .copying k last →
      s.fs.read ⟨.backlog, x⟩ = none →
      Stepped env rotate x dest s (.append n) { s with mover := .copying (k + n) s.now }
  | copystat {k : Nat} {last : Time} {f g : File} : s.mover = .copying k last →
      s.fs.read ⟨.ring, x⟩ = some f → f.bytes.length ≤ k → s.fs.read ⟨.backlog, x⟩ = some g →
      Stepped env rotate x dest s .copystat
        { s with fs := s.fs.write ⟨.backlog, x⟩ ⟨g.bytes, f.mtime⟩, mover := .statted }
  | copystatFails {k : Nat} {last : Time} : s.mover = .copying k last →
      s.fs.read ⟨.backlog, x⟩ = none →
      Stepped env rotate x dest s .copystat { s with mover := .failed }
  | unlinkRing : s.mover = .statted →
      Stepped env rotate x dest s .unlinkRing
        { s with fs := s.fs.remove ⟨.ring, x⟩, mover := .done }
  /-- The file is not listed, is skipped, or a call raises. -/
  | ends {a : Act} : Stepped env rotate x dest s a { s with exporter := .idle }
  | listed : Stepped env rotate x dest s .glob { s with exporter := .listed }
  | passed {getmtime : Option String} :
      SeerSensor.isFileActive rotate getmtime s.now ⟨.backlog, x⟩ s.fs = false →
      Stepped env rotate x dest s (.isFileActive getmtime) { s with exporter := .passed }
  | copied {g : File} : s.exporter = .passed → s.fs.read ⟨.backlog, x⟩ = some g →
      Stepped env rotate x dest s (.copy2 none)
        { s with fs := s.fs.write ⟨dest, x⟩ g, exporter := .copied }
  | torn {g : File} {n : Nat} : s.exporter = .passed → s.fs.read ⟨.backlog, x⟩ = some g →
      Stepped env rotate x dest s (.copy2 (some n))
        { s with fs := s.fs.write ⟨dest, x⟩ ⟨g.bytes.take n, s.now⟩, exporter := .idle }
  | hashedSrc {g : File} : s.exporter = .copied → s.fs.read ⟨.backlog, x⟩ = some g →
      Stepped env rotate x dest s .hashSrc
        { s with exporter := .hashedSrc (env.sha.digest g.bytes) }
  | hashedDst {a : String} {g : File} : s.exporter = .hashedSrc a → s.fs.read ⟨dest, x⟩ = some g →
      Stepped env rotate x dest s .hashDst
        { s with exporter := .hashedDst a (env.sha.digest g.bytes) }
  | mismatch {a b : String} : s.exporter = .hashedDst a b → a ≠ b →
      Stepped env rotate x dest s .unlink
        { s with fs := s.fs.remove ⟨dest, x⟩, exporter := .idle }
  | exported {a : String} {g : File} : s.exporter = .hashedDst a a →
      s.fs.read ⟨.backlog, x⟩ = some g →
      Stepped env rotate x dest s .unlink
        { s with fs := s.fs.remove ⟨.backlog, x⟩, exporter := .idle, success := true }

/-- Both programs are about to begin, and the backlog has no `x`. -/
structure Start (x : Name) (f : File) (s : State) : Prop where
  ring : s.fs.read ⟨.ring, x⟩ = some f
  backlog : s.fs.read ⟨.backlog, x⟩ = none
  mover : s.mover = .waiting
  exporter : s.exporter = .idle
  success : s.success = false

/-- The full bytes are in the ring, the backlog or on the drive, and on the
drive when a success was reported. -/
def Safe (x : Name) (dest : Dir) (c : Bytes) (s : State) : Prop :=
  (s.fs.contents ⟨.ring, x⟩ = some c ∨ s.fs.contents ⟨.backlog, x⟩ = some c ∨
    s.fs.contents ⟨dest, x⟩ = some c) ∧
    (s.success = true → s.fs.contents ⟨dest, x⟩ = some c)

/-- What the mover's place says about the file. -/
def MoverAt (rotate : ℚ) (x : Name) (f : File) (s : State) : Prop :=
  match s.mover with
  | .waiting => s.fs.read ⟨.ring, x⟩ = some f ∧ s.fs.read ⟨.backlog, x⟩ = none
  | .copying k last =>
    s.fs.read ⟨.ring, x⟩ = some f ∧ s.fs.read ⟨.backlog, x⟩ = some ⟨f.bytes.take k, last⟩ ∧
      s.now < last + rotate * (3 / 2)
  | .statted => s.fs.read ⟨.ring, x⟩ = some f
  | .done => True
  | .failed => False

/-- The copy is complete: both programs are past the point of danger. -/
def MoverPc.past : MoverPc → Bool
  | .statted | .done => true
  | _ => false

/-- What the exporter's place says. -/
def ExporterAt (env : Env) (x : Name) (dest : Dir) (c : Bytes) (s : State) : Prop :=
  match s.exporter with
  | .idle | .listed => True
  | .passed => s.mover.past = true ∧ s.fs.contents ⟨.backlog, x⟩ = some c
  | .copied =>
    s.mover.past = true ∧ s.fs.contents ⟨.backlog, x⟩ = some c ∧ s.fs.contents ⟨dest, x⟩ = some c
  | .hashedSrc a =>
    s.mover.past = true ∧ s.fs.contents ⟨.backlog, x⟩ = some c ∧ s.fs.contents ⟨dest, x⟩ = some c ∧
      a = env.sha.digest c
  | .hashedDst a b =>
    s.mover.past = true ∧ s.fs.contents ⟨.backlog, x⟩ = some c ∧ s.fs.contents ⟨dest, x⟩ = some c ∧
      a = env.sha.digest c ∧ b = env.sha.digest c

/-- Past the copy the full bytes are in the backlog until they are on the drive. -/
structure Inv (env : Env) (rotate : ℚ) (x : Name) (dest : Dir) (f : File) (s : State) : Prop where
  mover : MoverAt rotate x f s
  exporter : ExporterAt env x dest f.bytes s
  past : s.mover.past = true → s.success = false → s.fs.contents ⟨.backlog, x⟩ = some f.bytes
  success : s.success = true →
    s.mover.past = true ∧ s.fs.read ⟨.backlog, x⟩ = none ∧ s.fs.contents ⟨dest, x⟩ = some f.bytes

section
variable {env : Env} {rotate : ℚ} {x : Name} {dest : Dir} {f : File} {s s' : State}

theorem Start.inv (h : Start x f s) : Inv env rotate x dest f s := by
  refine ⟨?_, ?_, fun hp => ?_, fun hs => ?_⟩
  · unfold MoverAt; rw [h.mover]; exact ⟨h.ring, h.backlog⟩
  · unfold ExporterAt; rw [h.exporter]; trivial
  · rw [h.mover] at hp; cases hp
  · rw [h.success] at hs; cases hs

theorem Inv.safe (hs : Inv env rotate x dest f s) : Safe x dest f.bytes s := by
  refine ⟨?_, fun h => (hs.success h).2.2⟩
  have hring : s.fs.read ⟨.ring, x⟩ = some f → s.fs.contents ⟨.ring, x⟩ = some f.bytes :=
    FS.contents_of_read
  have hm := hs.mover
  unfold MoverAt at hm
  cases hpc : s.mover with
  | waiting | copying k last => rw [hpc] at hm; exact .inl (hring hm.1)
  | statted => rw [hpc] at hm; exact .inl (hring hm)
  | done =>
    cases hsucc : s.success with
    | true => exact .inr (.inr (hs.success hsucc).2.2)
    | false => exact .inr (.inl (hs.past (by rw [hpc]; rfl) hsucc))
  | failed => rw [hpc] at hm; exact hm.elim

theorem Inv.early (hs : Inv env rotate x dest f s) (hm : s.mover.past = false) :
    s.exporter = .idle ∨ s.exporter = .listed := by
  have he := hs.exporter
  unfold ExporterAt at he
  cases hpc : s.exporter with
  | idle => exact .inl rfl
  | listed => exact .inr rfl
  | passed | copied | hashedSrc a | hashedDst a b => rw [hpc] at he; rw [he.1] at hm; cases hm

theorem Inv.not_success (hs : Inv env rotate x dest f s) (hm : s.mover.past = false) :
    s.success = false := by
  by_contra hsucc
  rw [(hs.success (by simpa using hsucc)).1] at hm
  cases hm

/-- **The guard.** A file that is not active is complete. -/
theorem Inv.inactive (hs : Inv env rotate x dest f s) {getmtime : Option String}
    (h : isFileActive rotate getmtime s.now ⟨.backlog, x⟩ s.fs = false) :
    s.mover.past = true ∧ s.fs.contents ⟨.backlog, x⟩ = some f.bytes := by
  have hread : ∃ g, s.fs.read ⟨.backlog, x⟩ = some g ∧ ¬ s.now - g.mtime < rotate * (3 / 2) := by
    unfold SeerSensor.isFileActive at h
    split at h
    next g hg => exact ⟨g, hg, by simpa using h⟩
    · cases h
  obtain ⟨g, hg, hage⟩ := hread
  have hm := hs.mover
  unfold MoverAt at hm
  have hpast : s.mover.past = true := by
    cases hpc : s.mover with
    | waiting => rw [hpc, hg] at hm; cases hm.2
    | copying k last =>
      -- the age is that of the last write, and that is too recent
      simp only [hpc, hg, Option.some.injEq] at hm
      obtain ⟨-, rfl, hlt⟩ := hm
      exact absurd (by linarith) hage
    | statted | done => rfl
    | failed => rw [hpc] at hm; exact hm.elim
  refine ⟨hpast, hs.past hpast ?_⟩
  by_contra hsucc
  rw [(hs.success (by simpa using hsucc)).2.1] at hg
  cases hg

/-! ## What a step does -/

theorem moverStep_cases {a : Act} (h : moverStep x s a = some s') :
    Stepped env rotate x dest s a s' := by
  cases a with
  | tick | glob | isFileActive | copy2 | hashSrc | hashDst | unlink => cases h
  | create =>
    simp only [moverStep] at h
    split at h
    next hpc => cases h; exact .create hpc.1
    · cases h
  | append n =>
    simp only [moverStep] at h
    split at h
    next k last f hpc hring =>
      cases hback : s.fs.read ⟨.backlog, x⟩ with
      | some g => rw [hback] at h; cases h; exact .append hpc hring hback
      | none => rw [hback] at h; cases h; exact .appendUnseen hpc hback
    · cases h
  | copystat =>
    simp only [moverStep] at h
    split at h
    next k last f hpc hring =>
      split at h
      next hall =>
        cases hback : s.fs.read ⟨.backlog, x⟩ with
        | some g => rw [hback] at h; cases h; exact .copystat hpc hring hall hback
        | none => rw [hback] at h; cases h; exact .copystatFails hpc hback
      · cases h
    · cases h
  | unlinkRing =>
    simp only [moverStep] at h
    split at h
    next hpc => cases h; exact .unlinkRing hpc
    · cases h

theorem exporterStep_cases {a : Act} (h : exporterStep env rotate x dest s a = some s') :
    Stepped env rotate x dest s a s' := by
  cases a with
  | tick | create | append | copystat | unlinkRing => cases h
  | glob =>
    simp only [exporterStep] at h
    split at h
    swap
    · cases h
    cases h
    split
    · exact .listed
    · exact .ends
  | isFileActive getmtime =>
    simp only [exporterStep] at h
    split at h
    swap
    · cases h
    cases h
    split
    · exact .ends
    next hact => exact .passed (by simpa using hact)
  | copy2 torn =>
    simp only [exporterStep] at h
    split at h
    swap
    · cases h
    next hpc =>
      split at h
      next g hback => cases h; exact .copied hpc hback
      next g n hback => cases h; exact .torn hpc hback
      · cases h; exact .ends
  | hashSrc =>
    simp only [exporterStep] at h
    split at h
    swap
    · cases h
    next hpc =>
      cases h
      split
      next g hback => rw [sha256Of_eq]; exact .hashedSrc hpc hback
      · exact .ends
  | hashDst =>
    simp only [exporterStep] at h
    split at h
    next a hpc =>
      cases h
      split
      next g hdst => rw [sha256Of_eq]; exact .hashedDst hpc hdst
      · exact .ends
    · cases h
  | unlink =>
    simp only [exporterStep] at h
    split at h
    next a b hpc =>
      split at h
      next hne => cases h; exact .mismatch hpc hne
      next heq =>
        obtain rfl := not_ne_iff.mp heq
        split at h
        next g hback => cases h; exact .exported hpc hback
        · cases h; exact .ends
    · cases h

theorem step_cases {a : Act} (h : step env rotate x dest s a = some s') :
    Stepped env rotate x dest s a s' := by
  cases a with
  | tick t =>
    simp only [step] at h
    split at h
    next hmay => cases h; exact .tick hmay
    · cases h
  | create | append | copystat | unlinkRing => exact moverStep_cases h
  | glob | isFileActive | copy2 | hashSrc | hashDst | unlink => exact exporterStep_cases h

/-! ## The mover's operations -/

theorem Inv.tick (hs : Inv env rotate x dest f s) {t : Time} (hmay : mayTick rotate s t) :
    Inv env rotate x dest f { s with now := t } := by
  refine ⟨?_, hs.exporter, hs.past, hs.success⟩
  have hm := hs.mover
  unfold MoverAt at hm ⊢
  cases hpc : s.mover with
  | copying k last =>
    rw [hpc] at hm
    exact ⟨hm.1, hm.2.1, hmay.2 last (by rw [hpc]; rfl)⟩
  | waiting | statted | failed => rw [hpc] at hm; exact hm
  | done => trivial

theorem Inv.of_early (hs : Inv env rotate x dest f s) (hm : s.mover.past = false)
    (he : s'.exporter = s.exporter) (hsucc : s'.success = s.success)
    (hmover : MoverAt rotate x f s')
    (hpast : s'.mover.past = true → s'.fs.contents ⟨.backlog, x⟩ = some f.bytes) :
    Inv env rotate x dest f s' := by
  refine ⟨hmover, ?_, fun hp _ => hpast hp, fun h => ?_⟩
  · unfold ExporterAt
    rcases hs.early hm with hpc | hpc <;> rw [he, hpc] <;> trivial
  · rw [hsucc, hs.not_success hm] at h
    cases h

/-- While the mover copies, the ring has the file and the backlog what is written of it. -/
theorem Inv.copying (hs : Inv env rotate x dest f s) {k : Nat} {last : Time}
    (hpc : s.mover = .copying k last) :
    s.mover.past = false ∧ s.fs.read ⟨.ring, x⟩ = some f ∧
      s.fs.read ⟨.backlog, x⟩ = some ⟨f.bytes.take k, last⟩ := by
  have hm := hs.mover
  unfold MoverAt at hm
  rw [hpc] at hm
  exact ⟨by rw [hpc]; rfl, hm.1, hm.2.1⟩

theorem Inv.create (hrotate : 0 < rotate) (hs : Inv env rotate x dest f s)
    (hpc : s.mover = .waiting) :
    Inv env rotate x dest f
      { s with fs := s.fs.write ⟨.backlog, x⟩ ⟨[], s.now⟩, mover := .copying 0 s.now } := by
  have hm := hs.mover
  unfold MoverAt at hm
  rw [hpc] at hm
  refine hs.of_early (by rw [hpc]; rfl) rfl rfl ⟨?_, ?_, ?_⟩ (fun hp => by cases hp)
  · rw [FS.read_write_ne (by simp)]; exact hm.1
  · rw [FS.read_write_self, List.take_zero]
  · show s.now < s.now + rotate * (3 / 2)
    linarith

theorem Inv.append (hrotate : 0 < rotate) (hs : Inv env rotate x dest f s) {k n : Nat} {last : Time}
    (hpc : s.mover = .copying k last) :
    Inv env rotate x dest f { s with
      fs := s.fs.write ⟨.backlog, x⟩ ⟨f.bytes.take (k + n), s.now⟩
      mover := .copying (k + n) s.now } := by
  obtain ⟨hearly, hring, -⟩ := hs.copying hpc
  refine hs.of_early hearly rfl rfl ⟨?_, FS.read_write_self, ?_⟩ (fun hp => by cases hp)
  · rw [FS.read_write_ne (by simp)]; exact hring
  · show s.now < s.now + rotate * (3 / 2)
    linarith

theorem Inv.copystat (hs : Inv env rotate x dest f s) {k : Nat} {last : Time}
    (hpc : s.mover = .copying k last) (hall : f.bytes.length ≤ k) :
    Inv env rotate x dest f { s with
      fs := s.fs.write ⟨.backlog, x⟩ ⟨f.bytes.take k, f.mtime⟩
      mover := .statted } := by
  obtain ⟨hearly, hring, -⟩ := hs.copying hpc
  refine hs.of_early hearly rfl rfl ?_ (fun _ => ?_)
  · show (s.fs.write _ _).read ⟨.ring, x⟩ = some f
    rw [FS.read_write_ne (by simp)]
    exact hring
  · rw [FS.contents_write_self, List.take_of_length_le hall]

theorem Inv.unlinkRing (hdest : dest ≠ .ring) (hs : Inv env rotate x dest f s)
    (hpc : s.mover = .statted) :
    Inv env rotate x dest f { s with fs := s.fs.remove ⟨.ring, x⟩, mover := .done } := by
  have hpast : s.mover.past = true := by rw [hpc]; rfl
  have hdrive : (⟨dest, x⟩ : Path) ≠ ⟨.ring, x⟩ := Path.ne_of_dir hdest
  have hback : (⟨.backlog, x⟩ : Path) ≠ ⟨.ring, x⟩ := by simp
  have hkeep {p : Path} (hp : p ≠ ⟨.ring, x⟩) :
      (s.fs.remove ⟨.ring, x⟩).contents p = s.fs.contents p := by
    rw [FS.contents_remove, Function.update_of_ne hp]
  refine ⟨trivial, ?_, fun _ hsucc => ?_, fun hsucc => ⟨rfl, ?_, ?_⟩⟩
  · have he := hs.exporter
    unfold ExporterAt at he ⊢
    rw [hkeep hback, hkeep hdrive]
    cases hexp : s.exporter with
    | idle | listed => trivial
    | passed | copied | hashedSrc a | hashedDst a b => rw [hexp] at he; exact ⟨rfl, he.2⟩
  · rw [hkeep hback]; exact hs.past hpast hsucc
  · rw [FS.read_remove_ne hback]; exact (hs.success hsucc).2.1
  · rw [hkeep hdrive]; exact (hs.success hsucc).2.2

/-! ## The exporter's operations -/

theorem Inv.ends (hs : Inv env rotate x dest f s) :
    Inv env rotate x dest f { s with exporter := .idle } :=
  ⟨hs.mover, trivial, hs.past, hs.success⟩

theorem Inv.listed (hs : Inv env rotate x dest f s) :
    Inv env rotate x dest f { s with exporter := .listed } :=
  ⟨hs.mover, trivial, hs.past, hs.success⟩

theorem Inv.passed (hs : Inv env rotate x dest f s) {getmtime : Option String}
    (hact : SeerSensor.isFileActive rotate getmtime s.now ⟨.backlog, x⟩ s.fs = false) :
    Inv env rotate x dest f { s with exporter := .passed } :=
  ⟨hs.mover, hs.inactive hact, hs.past, hs.success⟩

/-- A step of the exporter past its guard leaves the mover and the ring alone. -/
theorem Inv.of_past (hs : Inv env rotate x dest f s) (hp : s.mover.past = true)
    (hmover : s'.mover = s.mover)
    (hring : s'.fs.read ⟨.ring, x⟩ = s.fs.read ⟨.ring, x⟩) (he : ExporterAt env x dest f.bytes s')
    (hpast : s'.success = false → s'.fs.contents ⟨.backlog, x⟩ = some f.bytes)
    (hsucc : s'.success = true → s'.fs.read ⟨.backlog, x⟩ = none ∧
      s'.fs.contents ⟨dest, x⟩ = some f.bytes) :
    Inv env rotate x dest f s' := by
  refine ⟨?_, he, fun _ => hpast, fun h => ⟨by rw [hmover]; exact hp, hsucc h⟩⟩
  have hm := hs.mover
  unfold MoverAt at hm ⊢
  rw [hmover]
  cases hpc : s.mover with
  | waiting | copying k last | failed => rw [hpc] at hp; cases hp
  | statted => rw [hpc] at hm; rw [hring]; exact hm
  | done => trivial

theorem Inv.pending (hs : Inv env rotate x dest f s) {b : Bytes}
    (hb : s.fs.contents ⟨.backlog, x⟩ = some b) :
    s.success = false := by
  by_contra hsucc
  obtain ⟨g, hg, -⟩ := FS.contents_eq_some.mp hb
  rw [(hs.success (by simpa using hsucc)).2.1] at hg
  cases hg

theorem Inv.copy2 (hring : dest ≠ .ring) (hback : dest ≠ .backlog) (hs : Inv env rotate x dest f s)
    (hpc : s.exporter = .passed) {w : File} {pc : ExporterPc}
    (hw : pc = .idle ∨ pc = .copied ∧ w.bytes = f.bytes) :
    Inv env rotate x dest f { s with fs := s.fs.write ⟨dest, x⟩ w, exporter := pc } := by
  have he := hs.exporter
  unfold ExporterAt at he
  rw [hpc] at he
  obtain ⟨hp, hb⟩ := he
  -- whatever lands on the drive, the backlog's copy is still there
  have hkeep : (s.fs.write ⟨dest, x⟩ w).contents ⟨.backlog, x⟩ = some f.bytes := by
    rw [FS.contents_write_ne (Path.ne_of_dir hback.symm), hb]
  have hfail : s.success = false := hs.pending hb
  refine hs.of_past hp rfl (FS.read_write_ne (Path.ne_of_dir hring.symm)) ?_ (fun _ => hkeep) ?_
  · rcases hw with rfl | ⟨rfl, hbytes⟩
    · trivial
    · exact ⟨hp, hkeep, by rw [FS.contents_write_self, hbytes]⟩
  · intro hsucc
    exact absurd hsucc (by simp [hfail])

theorem Inv.hashSrc (hs : Inv env rotate x dest f s) (hpc : s.exporter = .copied) {g : File}
    (hg : s.fs.read ⟨.backlog, x⟩ = some g) :
    Inv env rotate x dest f { s with exporter := .hashedSrc (env.sha.digest g.bytes) } := by
  have he := hs.exporter
  unfold ExporterAt at he
  rw [hpc] at he
  obtain ⟨hp, hb, hd⟩ := he
  have hbytes : g.bytes = f.bytes := Option.some.inj ((FS.contents_of_read hg).symm.trans hb)
  exact ⟨hs.mover, ⟨hp, hb, hd, by rw [hbytes]⟩, hs.past, hs.success⟩

theorem Inv.hashDst (hs : Inv env rotate x dest f s) {a : String} (hpc : s.exporter = .hashedSrc a)
    {g : File} (hg : s.fs.read ⟨dest, x⟩ = some g) :
    Inv env rotate x dest f { s with exporter := .hashedDst a (env.sha.digest g.bytes) } := by
  have he := hs.exporter
  unfold ExporterAt at he
  rw [hpc] at he
  obtain ⟨hp, hb, hd, ha⟩ := he
  have hbytes : g.bytes = f.bytes := Option.some.inj ((FS.contents_of_read hg).symm.trans hd)
  exact ⟨hs.mover, ⟨hp, hb, hd, ha, by rw [hbytes]⟩, hs.past, hs.success⟩

theorem Inv.unlink (hback : dest ≠ .backlog) (hs : Inv env rotate x dest f s) {a b : String}
    (hpc : s.exporter = .hashedDst a b) :
    a = b ∧ Inv env rotate x dest f
      { s with fs := s.fs.remove ⟨.backlog, x⟩, exporter := .idle, success := true } := by
  have he := hs.exporter
  unfold ExporterAt at he
  rw [hpc] at he
  obtain ⟨hp, hb, hd, rfl, rfl⟩ := he
  refine ⟨rfl, hs.of_past hp rfl (FS.read_remove_ne (by simp)) trivial ?_ (fun _ => ⟨?_, ?_⟩)⟩
  · intro hsucc
    cases hsucc
  · exact FS.read_remove_self
  · rw [FS.contents_remove, Function.update_of_ne (Path.ne_of_dir hback)]; exact hd

/-! ## Every interleaving -/

theorem step_inv (hrotate : 0 < rotate) (hring : dest ≠ .ring) (hback : dest ≠ .backlog) {a : Act}
    (hs : Inv env rotate x dest f s) (h : step env rotate x dest s a = some s') :
    Inv env rotate x dest f s' := by
  cases step_cases h with
  | tick hmay => exact hs.tick hmay
  | create hpc => exact hs.create hrotate hpc
  | append hpc hf _ =>
    obtain ⟨-, hread, -⟩ := hs.copying hpc
    rw [hread, Option.some.injEq] at hf
    subst hf
    exact hs.append hrotate hpc
  | appendUnseen hpc hgone | copystatFails hpc hgone =>
    -- nobody takes the file away while it is being copied
    rw [(hs.copying hpc).2.2] at hgone
    cases hgone
  | copystat hpc hf hall hg =>
    obtain ⟨-, hread, hcopy⟩ := hs.copying hpc
    rw [hread, Option.some.injEq] at hf
    rw [hcopy, Option.some.injEq] at hg
    subst hf hg
    exact hs.copystat hpc hall
  | unlinkRing hpc => exact hs.unlinkRing hring hpc
  | ends => exact hs.ends
  | listed => exact hs.listed
  | passed hact => exact hs.passed hact
  | copied hpc hg =>
    have he := hs.exporter
    unfold ExporterAt at he
    rw [hpc] at he
    have hbytes := Option.some.inj ((FS.contents_of_read hg).symm.trans he.2)
    exact hs.copy2 hring hback hpc (.inr ⟨rfl, hbytes⟩)
  | torn hpc _ => exact hs.copy2 hring hback hpc (.inl rfl)
  | hashedSrc hpc hg => exact hs.hashSrc hpc hg
  | hashedDst hpc hg => exact hs.hashDst hpc hg
  | mismatch hpc hne => exact absurd (hs.unlink hback hpc).1 hne
  | exported hpc _ => exact (hs.unlink hback hpc).2

end

/-- **The guard protects the file being copied.** From any state in which the
backlog has no `x`, in every interleaving of the mover and the exporter. -/
theorem guard_protects_copy (env : Env) (rotate : ℚ) (x : Name) (drive : Drive) (date : Date)
    (f : File) (s s' : State) (acts : List Act) (hrotate : 0 < rotate) (hs : Start x f s)
    (hr : Runs.run (step env rotate x (.pcap drive date)) s acts = some s') :
    Safe x (.pcap drive date) f.bytes s' := by
  have hstep (t : State) (a : Act) (t' : State) (ht : Inv env rotate x (.pcap drive date) f t)
      (h : step env rotate x (.pcap drive date) t a = some t') :
        Inv env rotate x (.pcap drive date) f t' :=
    step_inv hrotate (by simp) (by simp) ht h
  exact (Runs.invariant hstep hs.inv hr).safe

/-- A ring file of two bytes, an empty backlog, at time 100. -/
def benchState : State where
  fs := FS.empty.write ⟨.ring, "x.pcap"⟩ ⟨[0x61, 0x62], 40⟩
  now := 100

/-- The exporter looks twice while the mover copies, and takes the file after
`copystat` and before the ring's is gone. -/
def benchActs : List Act :=
  [.create, .tick 129, .glob, .isFileActive none, .append 1, .tick 158, .glob, .isFileActive none,
    .append 1, .glob, .copystat, .isFileActive none, .copy2 none, .hashSrc, .unlinkRing, .hashDst,
    .unlink]

theorem guard_protects_copy_interleaved : ∃ s',
    Runs.run (step benchEnv 20 "x.pcap" (.pcap "A" "20250101")) benchState benchActs = some s' ∧
      s'.success = true ∧ Safe "x.pcap" (.pcap "A" "20250101") [0x61, 0x62] s' := by
  have hran : (Runs.run (step benchEnv 20 "x.pcap" (.pcap "A" "20250101")) benchState
      benchActs).map State.success = some true := by decide +kernel
  obtain ⟨s', hrun, hsucc⟩ := Option.map_eq_some_iff.mp hran
  have hstart : Start "x.pcap" ⟨[0x61, 0x62], 40⟩ benchState := ⟨by decide, by decide, rfl, rfl, rfl⟩
  exact ⟨s', hrun, hsucc, guard_protects_copy benchEnv 20 "x.pcap" "A" "20250101"
    ⟨[0x61, 0x62], 40⟩ benchState s' benchActs (by decide) hstart hrun⟩

/-! ## Undisturbed, the steps are the programs' own calls -/

section
variable {env : Env} {rotate : ℚ} {x : Name} {dest : Dir} {f : File} {s : State}

theorem run_chunks (fs : FS) (chunks : List Nat) (k : Nat) (hring : fs.read ⟨.ring, x⟩ = some f) :
    Runs.run (step env rotate x dest)
        { s with fs := fs.write ⟨.backlog, x⟩ ⟨f.bytes.take k, s.now⟩, mover := .copying k s.now }
        (chunks.map Act.append) =
      some { s with
        fs := fs.write ⟨.backlog, x⟩ ⟨f.bytes.take (k + chunks.sum), s.now⟩
        mover := .copying (k + chunks.sum) s.now } := by
  induction chunks generalizing k with
  | nil => rfl
  | cons n chunks ih =>
    have hread (g : File) : (fs.write ⟨.backlog, x⟩ g).read ⟨.ring, x⟩ = some f := by
      rw [FS.read_write_ne (by simp), hring]
    rw [List.map_cons, Runs.run]
    simp only [step, moverStep, hread, FS.read_write_self, FS.write_write, Option.bind_some,
      List.sum_cons, ← Nat.add_assoc]
    exact ih (k + n)

/-- The mover by itself, in whatever chunks, does what `shutil.move` does. -/
theorem mover_alone {chunks : List Nat} (hdev : ¬ env.sameDev ⟨.ring, x⟩ .backlog)
    (hring : s.fs.read ⟨.ring, x⟩ = some f) (hmover : s.mover = .waiting)
    (hall : f.bytes.length ≤ chunks.sum) :
    Runs.run (step env rotate x dest) s
      (.create :: (chunks.map Act.append ++ [.copystat, .unlinkRing])) =
      some { s with
        fs := Raise.after (shutilMove env {} ⟨.ring, x⟩ ⟨.backlog, x⟩) s.fs
        mover := .done } := by
  have hread (g : File) : (s.fs.write ⟨.backlog, x⟩ g).read ⟨.ring, x⟩ = some f := by
    rw [FS.read_write_ne (by simp), hring]
  have hmove : Raise.after (shutilMove env {} ⟨.ring, x⟩ ⟨.backlog, x⟩) s.fs =
      (s.fs.write ⟨.backlog, x⟩ f).remove ⟨.ring, x⟩ := by
    have hne : (⟨.ring, x⟩ : Path) ≠ ⟨.backlog, x⟩ := by simp
    rcases shutilMove_ends env {} hne hring with ⟨hstop, -⟩ | ⟨-, hend⟩
    · simp [MoveFaults.stopsEarly, CopyFault.isRefused] at hstop
    · exact hend.faultless hdev
  rw [hmove, Runs.run_cons]
  refine ⟨{ s with
    fs := s.fs.write ⟨.backlog, x⟩ ⟨f.bytes.take 0, s.now⟩
    mover := .copying 0 s.now }, ?_, ?_⟩
  · simp [step, moverStep, hmover, hring]
  rw [Runs.run_append]
  refine ⟨_, run_chunks s.fs chunks 0 hring, ?_⟩
  simp only [Runs.run, step, moverStep, hread, FS.read_write_self, FS.write_write, Nat.zero_add,
    hall, if_true, Option.bind_some, List.take_of_length_le]

/-- The exporter's turn by itself, past the guard, is a `transfer_file`. -/
theorem exporter_alone (hdev : ¬ env.sameDev ⟨.backlog, x⟩ dest) (hpc : s.exporter = .passed)
    (hback : s.fs.read ⟨.backlog, x⟩ = some f) :
    Runs.run (step env rotate x dest) s [.copy2 none, .hashSrc, .hashDst, .unlink] =
      some { s with
        fs := (transferFile env {} ⟨.backlog, x⟩ dest true s.fs).2
        exporter := .idle
        success := (transferFile env {} ⟨.backlog, x⟩ dest true s.fs).1.success } := by
  have hne : (⟨.backlog, x⟩ : Path) ≠ ⟨dest, x⟩ := Path.ne_of_dir fun e => hdev (congrArg env.dev e)
  rcases transferFile_ends env {} hne hback with ⟨hstop, -⟩ | ⟨-, r, fs', he, hend⟩
  · simp [TransferFaults.stopsEarly, MoveFaults.stopsEarly, CopyFault.isRefused] at hstop
  obtain ⟨hsucc, rfl⟩ := hend.faultless hdev
  rw [he]
  simp [Runs.run, step, exporterStep, hpc, hback, FS.read_write_ne hne, hsucc]

end

end SeerSensor.ActiveGuard
