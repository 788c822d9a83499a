/-
`seer_uninstall.sh`: its options, and what is left of them when it starts itself
again through `sudo`.

The option loop runs until there is no parameter left, and only then does the script
look at who is running it. So `exec sudo -E bash "$0" "$@"` passes nothing on, and the
second run, as root, starts from the defaults: whatever a normal user asks for, data
is kept and the question is asked.
-/
import SeerSensor.Lib.Shell

namespace SeerSensor.Uninstall

open Shell Raise

/-- `PURGE` and `ASSUME_YES`. -/
structure Flags where
  purge : Bool := false
  assumeYes : Bool := false
  deriving DecidableEq

/-- `usage`, in a script called `name`. -/
def usage (name : String) : List String :=
  ["SEER uninstall",
   "",
   "Usage: " ++ name ++ " [--purge] [--yes]",
   "",
   "  --purge   Also delete config (/opt/seer) and data (/var/seer, /var/lib/tcpdump/pcap_ring)",
   "  --yes     Do not prompt for confirmation"]

/-- The `case "$1"` of the option loop. -/
def readOption (name : String) : Cmd Flags Unit := do
  let a ← first
  if a = "--purge" then do
    assign fun x => { x with purge := true }
    shift
  else if a = "--yes" ∨ a = "-y" then do
    assign fun x => { x with assumeYes := true }
    shift
  else if a = "-h" ∨ a = "--help" then
    stop 0 (usage name)
  else
    stop 2 (("Unknown arg: " ++ a) :: usage name)

/-- The option loop on the parameters `args`, from the defaults. -/
def optionLoop (name : String) (args : List String) : EStateM.Result Stop (Script Flags) Unit :=
  whileParams (readOption name) (args.length + 1) ⟨args, {}⟩

/-- How the script gets past the check of `EUID`. -/
inductive Next where
  | stopped (e : Stop)
  | reexec (args : List String)
  | goesOn (flags : Flags)
  deriving DecidableEq

/-- One process, up to and including `exec sudo -E bash "$0" "$@"`. -/
def start (name : String) (euid : Nat) (args : List String) : Next :=
  match optionLoop name args with
  | .error e _ => .stopped e
  | .ok _ s => if euid ≠ 0 then .reexec s.params else .goesOn s.vars

/-- The call as a whole: `sudo` runs the script again as root, with what it is passed. -/
def invoke (name : String) (euid : Nat) (args : List String) : Next :=
  match start name euid args with
  | .reexec args' => start name 0 args'
  | next => next

/-- The flags the rest of the script works with, if it is reached. -/
def inForce (name : String) (euid : Nat) (args : List String) : Option Flags :=
  match invoke name euid args with
  | .goesOn flags => some flags
  | _ => none

/-- `confirm`, with `ans` what was read. -/
def confirm (flags : Flags) (ans : String) : Bool := flags.assumeYes || ans == "y" || ans == "Y"

/-- It was not confirmed, or it ran. -/
inductive Done where
  | aborted
  | removed (purged : Bool)
  deriving DecidableEq

/-- How an uninstallation that gets past its options ends. -/
def uninstall (name : String) (euid : Nat) (ans : String) (args : List String) : Option Done :=
  (inForce name euid args).map fun flags => if confirm flags ans then .removed flags.purge else .aborted

/-- The option loop ends normally. -/
def Accepted (name : String) (args : List String) : Prop := ∃ s, optionLoop name args = .ok () s

/-! ## The option loop -/

/-- The words the loop shifts away. -/
def IsOption (a : String) : Prop := a = "--purge" ∨ a = "--yes" ∨ a = "-y"

instance : DecidablePred IsOption := fun a => inferInstanceAs (Decidable (a = "--purge" ∨ a = "--yes" ∨ a = "-y"))

/-- What the loop does with any other word. -/
def refusal (name a : String) : Stop :=
  if a = "-h" ∨ a = "--help" then .exit 0 (usage name) else .exit 2 (("Unknown arg: " ++ a) :: usage name)

/-- What the options say. -/
def flagsOf (args : List String) : Flags where
  purge := "--purge" ∈ args
  assumeYes := "--yes" ∈ args ∨ "-y" ∈ args

section
variable {name a : String} {rest done args : List String} {s : Script Flags}

theorem readOption_option (name : String) (hs : s.params = a :: rest) (ha : IsOption a) (hv : s.vars = flagsOf done) :
    ∃ s', readOption name s = .ok () s' ∧ s'.params = rest ∧ s'.vars = flagsOf (done ++ [a]) := by
  rw [readOption, bind_of_ok (first_cons hs)]
  by_cases hp : a = "--purge"
  · refine ⟨⟨rest, { s.vars with purge := true }⟩, ?_, rfl, by simp [hv, flagsOf, hp]⟩
    rw [if_pos hp, bind_of_ok (assign_apply _)]
    exact shift_cons hs
  · have hy : a = "--yes" ∨ a = "-y" := ha.resolve_left hp
    refine ⟨⟨rest, { s.vars with assumeYes := true }⟩, ?_, rfl, ?_⟩
    · rw [if_neg hp, if_pos hy, bind_of_ok (assign_apply _)]
      exact shift_cons hs
    · rcases hy with rfl | rfl <;> simp [hv, flagsOf]

theorem readOption_refused (hs : s.params = a :: rest) (ha : ¬ IsOption a) :
    readOption name s = .error (refusal name a) s := by
  simp only [IsOption, not_or] at ha
  rw [readOption, bind_of_ok (first_cons hs)]
  simp only [ha.1, ha.2.1, ha.2.2, or_self, if_false, refusal]
  split <;> rfl

/-- The loop ends with the flags the options say, or at a word that is not an option. -/
theorem optionLoop_cases (name : String) (args : List String) :
    (∃ s, optionLoop name args = .ok () s ∧ (∀ a ∈ args, IsOption a) ∧ s.vars = flagsOf args) ∨
      ∃ e s, optionLoop name args = .error e s ∧ ∃ a ∈ args, ¬ IsOption a ∧ e = refusal name a := by
  refine whileParams_cases (s := ⟨args, {}⟩) (fun done s => (∀ a ∈ done, IsOption a) ∧ s.vars = flagsOf done)
    (fun e => ∃ a ∈ args, ¬ IsOption a ∧ e = refusal name a) ?_ ⟨by simp, rfl⟩ (Nat.lt_succ_self _)
  rintro done a rest t hargs ht ⟨hdone, hv⟩
  have hargs : args = done ++ a :: rest := hargs
  by_cases ha : IsOption a
  · obtain ⟨t', hbody, hrest, hv'⟩ := readOption_option name ht ha hv
    refine .inl ⟨t', hbody, hrest, fun b hb => ?_, hv'⟩
    rcases List.mem_append.mp hb with hb | hb
    · exact hdone b hb
    · exact List.mem_singleton.mp hb ▸ ha
  · exact .inr ⟨_, t, readOption_refused ht ha, a, by simp [hargs], ha, rfl⟩

theorem optionLoop_of_accepted (h : Accepted name args) :
    ∃ s, optionLoop name args = .ok () s ∧ s.params = [] ∧ (∀ a ∈ args, IsOption a) ∧ s.vars = flagsOf args := by
  rcases optionLoop_cases name args with ⟨s, hs, hopt, hv⟩ | ⟨e, s, hs, _⟩
  · exact ⟨s, hs, whileParams_ok hs, hopt, hv⟩
  · obtain ⟨t, ht⟩ := h
    rw [hs] at ht
    cases ht

theorem accepted_iff : Accepted name args ↔ ∀ a ∈ args, IsOption a := by
  constructor
  · intro h
    obtain ⟨_, _, _, hopt, _⟩ := optionLoop_of_accepted h
    exact hopt
  · intro h
    rcases optionLoop_cases name args with ⟨s, hs, _⟩ | ⟨e, s, _, a, ha, hno, _⟩
    · exact ⟨s, hs⟩
    · exact absurd (h a ha) hno

end

/-! ## The two ways to run it -/

section
variable {name : String} {euid : Nat} {args : List String}

theorem start_root (h : Accepted name args) : start name 0 args = .goesOn (flagsOf args) := by
  obtain ⟨s, hs, _, _, hv⟩ := optionLoop_of_accepted h
  simp [start, hs, hv]

theorem start_unprivileged (hne : euid ≠ 0) (h : Accepted name args) : start name euid args = .reexec [] := by
  obtain ⟨s, hs, hnil, _, _⟩ := optionLoop_of_accepted h
  simp [start, hs, hne, hnil]

theorem inForce_root (h : Accepted name args) : inForce name 0 args = some (flagsOf args) := by
  simp [inForce, invoke, start_root h]

theorem inForce_unprivileged (hne : euid ≠ 0) (h : Accepted name args) : inForce name euid args = some {} := by
  have hnil : Accepted name [] := accepted_iff.mpr (by simp)
  simp only [inForce, invoke, start_unprivileged hne h, start_root hnil]
  rfl

theorem flagsOf_eq_default (h : Accepted name args) : flagsOf args = {} ↔ args = [] := by
  constructor
  · intro hd
    simp only [flagsOf, Flags.mk.injEq, decide_eq_false_iff_not, not_or] at hd
    -- Any word there is would be an option that sets a flag.
    refine List.eq_nil_iff_forall_not_mem.mpr fun a ha => ?_
    rcases accepted_iff.mp h a ha with rfl | rfl | rfl
    · exact hd.1 ha
    · exact hd.2.1 ha
    · exact hd.2.2 ha
  · intro hnil
    rw [hnil]
    rfl

/-- **When a normal user's uninstallation means the same as root's**: only without any
option. -/
theorem uninstall_flags_agree_iff (name : String) (euid : Nat) (hne : euid ≠ 0) (args : List String)
    (h : Accepted name args) : inForce name euid args = inForce name 0 args ↔ args = [] := by
  rw [inForce_unprivileged hne h, inForce_root h, Option.some.injEq, eq_comm]
  exact flagsOf_eq_default h

/-- `--purge --yes`, as a normal user. -/
theorem uninstall_flags_agree_iff_purge :
    Accepted "seer_uninstall.sh" ["--purge", "--yes"] ∧
      (inForce "seer_uninstall.sh" 1000 ["--purge", "--yes"] = inForce "seer_uninstall.sh" 0 ["--purge", "--yes"] ↔
        ["--purge", "--yes"] = []) := by
  have h : Accepted "seer_uninstall.sh" ["--purge", "--yes"] := accepted_iff.mpr (by decide)
  exact ⟨h, uninstall_flags_agree_iff _ 1000 (by decide) _ h⟩

/-- As root, `--purge --yes` purges without a question; as a normal user it does
neither. -/
theorem purge_lost_through_sudo :
    Accepted "seer_uninstall.sh" ["--purge", "--yes"] ∧
      inForce "seer_uninstall.sh" 0 ["--purge", "--yes"] = some ⟨true, true⟩ ∧
      inForce "seer_uninstall.sh" 1000 ["--purge", "--yes"] = some ⟨false, false⟩ :=
  ⟨accepted_iff.mpr (by decide), by decide +kernel, by decide +kernel⟩

/-- Whatever the options, a normal user is asked, and what was captured stays. -/
theorem uninstall_unprivileged (hne : euid ≠ 0) (h : Accepted name args) (ans : String) :
    uninstall name euid ans args = some (if ans = "y" ∨ ans = "Y" then .removed false else .aborted) := by
  simp [uninstall, inForce_unprivileged hne h, confirm]

theorem uninstall_root (h : Accepted name args) (ans : String) :
    uninstall name 0 ans args =
      some (if "--yes" ∈ args ∨ "-y" ∈ args ∨ ans = "y" ∨ ans = "Y" then .removed ("--purge" ∈ args) else .aborted) := by
  simp only [uninstall, inForce_root h, Option.map_some, confirm, flagsOf, Bool.or_eq_true, decide_eq_true_eq, beq_iff_eq,
    or_assoc]

end

end SeerSensor.Uninstall
