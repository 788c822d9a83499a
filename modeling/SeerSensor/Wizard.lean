/-
`setup_wizard.py`: the questions it asks and the configuration it hands to
`write_yaml`.

Every question checks its own range, and what is checked stays as it is but for one
value: a soft limit that is not below the hard limit is replaced by the hard limit
less one, after its check, so that a hard limit of 1 makes it 0. Without questions
nothing is checked, and two Zeek workers are written on a machine with one CPU.

The wizard starts from `DEFAULTS` every time. What is in place is backed up and
never read, so that running it again and accepting every default restores the
defaults; and on a machine without `enp2s0`, or with one CPU, a default fails its
own check and the question comes back for ever.
-/
import SeerSensor.Lib.Prompt
import SeerSensor.Lib.PyStr

namespace SeerSensor.Wizard

open Prompt

/-- Python's floating-point numbers, as far as the wizard needs them: the literals 0.1,
0.5 and 5.0, and that 0.5 is written so that it is read back and lies between the
others. -/
structure Floats (F : Type) where
  ofText : String → Option F
  toText : F → String
  lt : F → F → Bool
  tenth : F
  half : F
  five : F
  ofText_half : ofText (toText half) = some half
  tenth_le_half : lt half tenth = false
  half_le_five : lt five half = false

/-- The section `capture`. -/
structure Capture where
  snaplen : Int
  rotateSeconds : Int
  diskSoftPct : Int
  diskHardPct : Int
  deriving DecidableEq

/-- The section `export`. -/
structure ExportSection where
  mountCandidates : List String
  minFreePct : Int
  pollInterval : Int
  deriving DecidableEq

/-- What the wizard writes to `seer.yml`. -/
structure Config (F : Type) where
  interface : String
  fanoutId : Int
  zeekWorkers : Int
  refreshInterval : F
  bufferThreshold : Int
  ringDir : String
  destDir : String
  backlogDir : String
  jsonSpool : String
  moverLog : String
  capture : Capture
  exportSection : ExportSection
  waitLinkTimeout : Int
  deriving DecidableEq

/-- What the wizard finds: floats, `os.cpu_count()`, which names exist below
`/sys/class/net`, and the directory in the order it is listed. -/
structure Machine (F : Type) where
  floats : Floats F
  cpuCount : Option Nat
  netExists : String → Bool
  netNames : List String

variable {F : Type}

/-- `DEFAULTS`. -/
def defaults (fl : Floats F) : Config F where
  interface := "enp2s0"
  fanoutId := 42
  zeekWorkers := 2
  refreshInterval := fl.half
  bufferThreshold := 4
  ringDir := "/var/seer/pcap_ring"
  destDir := "/opt/seer/var/queue"
  backlogDir := "/opt/seer/var/backlog"
  jsonSpool := "/var/seer/json_spool"
  moverLog := "/var/log/seer/mover.log"
  capture := { snaplen := 128, rotateSeconds := 20, diskSoftPct := 80, diskHardPct := 90 }
  exportSection :=
    { mountCandidates := ["/mnt/seer_external", "/mnt/SEER_EXT", "/media/seer_external"]
      minFreePct := 2
      pollInterval := 2 }
  waitLinkTimeout := 60

/-- `os.cpu_count() or 1`. -/
def Machine.cpus (m : Machine F) : Nat :=
  match m.cpuCount with
  | some (n + 1) => n + 1
  | _ => 1

/-- `iface_exists`. -/
def ifaceExists (m : Machine F) (name : String) : Bool := name ≠ "lo" && m.netExists name

/-! ## Questions -/

/-- `input(…).strip() or default`. -/
def orDefault (default answer : String) : String :=
  if PyStr.strip answer = "" then default else PyStr.strip answer

/-- The text of a question. -/
def question (label default : String) : String := label ++ " [" ++ default ++ "]: "

/-- `prompt_str`. -/
def promptStr (label default : String) : Asks String := do
  let answer ← ask (question label default)
  pure (orDefault default answer)

/-- A number within its bounds. -/
def acceptInt (lo hi : Option Int) (s : String) : Option Int :=
  match PyStr.int s with
  | some n => if lo.any (n < ·) || hi.any (· < n) then none else some n
  | none => none

/-- The complaint of `prompt_int`. -/
def intComplaint (lo hi : Option Int) : String :=
  "  Enter an integer " ++
    " and ".intercalate ((lo.map fun n => ">=" ++ toString n).toList ++ (hi.map fun n => "<=" ++ toString n).toList)

/-- `prompt_int`. -/
def promptInt (label : String) (default : Int) (lo hi : Option Int) : Asks Int :=
  askUntil (question label (toString default)) (intComplaint lo hi) fun answer =>
    acceptInt lo hi (orDefault (toString default) answer)

/-- The same for a float. -/
def acceptFloat (fl : Floats F) (lo hi : Option F) (s : String) : Option F :=
  match fl.ofText s with
  | some x => if lo.any (fl.lt x ·) || hi.any (fl.lt · x) then none else some x
  | none => none

/-- `prompt_float`. -/
def promptFloat (fl : Floats F) (label : String) (default : F) (lo hi : Option F) : Asks F :=
  askUntil (question label (fl.toText default)) "  Enter a number." fun answer =>
    acceptFloat fl lo hi (orDefault (fl.toText default) answer)

/-- The loop around the first question. -/
def promptInterface (m : Machine F) (default : String) : Asks String :=
  askUntil (question "Network interface" default)
    "  Interface not found. (Tip: run `ip link` to list names.)" fun answer =>
    let iface := orDefault default answer
    if ifaceExists m iface then some iface else none

/-! ## The run -/

/-- What the questions give: the configuration but for the disk limits, and these. -/
structure Replies (F : Type) where
  cfg : Config F
  soft : Int
  hard : Int

/-- The questions in their order, each with the value in `cfg` for its default. -/
def askAll (m : Machine F) (cfg : Config F) : Asks (Replies F) := do
  let interface ← promptInterface m cfg.interface
  -- capture params
  let snaplen ← promptInt "tcpdump snaplen (bytes)" cfg.capture.snaplen (some 64) (some 65535)
  let rotateSeconds ← promptInt "Rotation interval (seconds)" cfg.capture.rotateSeconds (some 5) (some 300)
  -- Zeek and fanout
  let zeekWorkers ← promptInt "Zeek workers" cfg.zeekWorkers (some 1) (some m.cpus)
  let fanoutId ← promptInt "AF_PACKET fanout ID" cfg.fanoutId (some 1) (some 65535)
  -- UI and mover
  let refreshInterval ← promptFloat m.floats "UI refresh interval (seconds)" cfg.refreshInterval
    (some m.floats.tenth) (some m.floats.five)
  let bufferThreshold ← promptInt "Mover threshold (# files before moving)" cfg.bufferThreshold (some 2) (some 999)
  -- paths
  let ringDir ← promptStr "ring_dir path" cfg.ringDir
  let destDir ← promptStr "dest_dir path" cfg.destDir
  let backlogDir ← promptStr "backlog_dir path" cfg.backlogDir
  let jsonSpool ← promptStr "json_spool path" cfg.jsonSpool
  let moverLog ← promptStr "mover_log path" cfg.moverLog
  -- disk guardrails
  let soft ← promptInt "Disk soft limit %" cfg.capture.diskSoftPct (some 1) (some 99)
  let hard ← promptInt "Disk hard limit %" cfg.capture.diskHardPct (some 1) (some 99)
  pure
    { cfg := { cfg with
        interface, zeekWorkers, fanoutId, refreshInterval, bufferThreshold, ringDir, destDir, backlogDir,
        jsonSpool, moverLog
        capture := { cfg.capture with snaplen, rotateSeconds } }
      soft
      hard }

/-- The configuration with the disk limits; a soft limit too high is adjusted. -/
def guardrails (r : Replies F) : Asks (Config F) := do
  if r.soft ≥ r.hard then
    tell "  soft% must be < hard%; adjusting soft = hard-1."
    pure { r.cfg with capture := { r.cfg.capture with diskSoftPct := r.hard - 1, diskHardPct := r.hard } }
  else
    pure { r.cfg with capture := { r.cfg.capture with diskSoftPct := r.soft, diskHardPct := r.hard } }

/-- Non-interactive: the default interface, or the first that is not the loopback. -/
def pickInterface (m : Machine F) (cfg : Config F) : Config F :=
  if ifaceExists m cfg.interface then cfg
  else
    match m.netNames.find? fun name => name ≠ "lo" && ifaceExists m name with
    | some name => { cfg with interface := name }
    | none => cfg

/-- `cfg = DEFAULTS.copy()`: nothing of the configuration in place is read. -/
def copyDefaults (m : Machine F) (_inPlace : Option (Config F)) : Config F := defaults m.floats

/-- `main` up to `write_yaml`: the configuration that is written. -/
def main (m : Machine F) (inPlace : Option (Config F)) (nonInteractive : Bool) : Asks (Config F) := do
  tell "== SEER Setup Wizard =="
  let cfg := copyDefaults m inPlace
  if nonInteractive then
    pure (pickInterface m cfg)
  else
    let replies ← askAll m cfg
    guardrails replies

/-- The configuration written for the answers; `none` is that they end before. -/
def written (m : Machine F) (inPlace : Option (Config F)) (nonInteractive : Bool) (answers : List String) :
    Option (Config F) :=
  (main m inPlace nonInteractive ⟨answers, []⟩).map (·.1)

/-! ## Validity -/

/-- The documented ranges. -/
structure Valid (m : Machine F) (cfg : Config F) : Prop where
  snaplen : 64 ≤ cfg.capture.snaplen ∧ cfg.capture.snaplen ≤ 65535
  rotateSeconds : 5 ≤ cfg.capture.rotateSeconds ∧ cfg.capture.rotateSeconds ≤ 300
  zeekWorkers : 1 ≤ cfg.zeekWorkers ∧ cfg.zeekWorkers ≤ m.cpus
  fanoutId : 1 ≤ cfg.fanoutId ∧ cfg.fanoutId ≤ 65535
  bufferThreshold : 2 ≤ cfg.bufferThreshold ∧ cfg.bufferThreshold ≤ 999
  disk : 1 ≤ cfg.capture.diskSoftPct ∧ cfg.capture.diskSoftPct < cfg.capture.diskHardPct ∧
    cfg.capture.diskHardPct ≤ 99

/-- What the questions see to. -/
structure Replies.Checked (m : Machine F) (r : Replies F) : Prop where
  interface : ifaceExists m r.cfg.interface = true
  snaplen : 64 ≤ r.cfg.capture.snaplen ∧ r.cfg.capture.snaplen ≤ 65535
  rotateSeconds : 5 ≤ r.cfg.capture.rotateSeconds ∧ r.cfg.capture.rotateSeconds ≤ 300
  zeekWorkers : 1 ≤ r.cfg.zeekWorkers ∧ r.cfg.zeekWorkers ≤ m.cpus
  fanoutId : 1 ≤ r.cfg.fanoutId ∧ r.cfg.fanoutId ≤ 65535
  bufferThreshold : 2 ≤ r.cfg.bufferThreshold ∧ r.cfg.bufferThreshold ≤ 999
  soft : 1 ≤ r.soft ∧ r.soft ≤ 99
  hard : 1 ≤ r.hard ∧ r.hard ≤ 99

section
variable {m : Machine F} {inPlace : Option (Config F)} {cfg : Config F}

theorem acceptInt_eq_some {lo hi n : Int} {s : String} (h : acceptInt (some lo) (some hi) s = some n) :
    lo ≤ n ∧ n ≤ hi := by
  unfold acceptInt at h
  cases hs : PyStr.int s with
  | none => simp [hs] at h
  | some k =>
    simp only [hs, Option.any_some] at h
    split_ifs at h with hout
    cases h
    simp only [Bool.or_eq_true, decide_eq_true_eq, not_or] at hout
    omega

theorem ensures_promptInt (label : String) (default lo hi : Int) :
    Ensures (promptInt label default (some lo) (some hi)) fun n => lo ≤ n ∧ n ≤ hi :=
  Ensures.askUntil fun _ _ h => acceptInt_eq_some h

theorem ensures_promptInterface (m : Machine F) (default : String) :
    Ensures (promptInterface m default) fun iface => ifaceExists m iface = true := by
  refine Ensures.askUntil fun a iface h => ?_
  simp only at h
  split_ifs at h with hexists
  cases h
  exact hexists

theorem ensures_true {α : Type} (x : Asks α) : Ensures x fun _ => True := fun _ _ _ _ => trivial

theorem ensures_askAll (m : Machine F) (cfg : Config F) : Ensures (askAll m cfg) (Replies.Checked m) := by
  refine Ensures.bind (ensures_promptInterface m _) fun interface hinterface => ?_
  refine Ensures.bind (ensures_promptInt _ _ _ _) fun snaplen hsnaplen => ?_
  refine Ensures.bind (ensures_promptInt _ _ _ _) fun rotate hrotate => ?_
  refine Ensures.bind (ensures_promptInt _ _ _ _) fun zeek hzeek => ?_
  refine Ensures.bind (ensures_promptInt _ _ _ _) fun fanout hfanout => ?_
  refine Ensures.bind (ensures_true _) fun refresh _ => ?_
  refine Ensures.bind (ensures_promptInt _ _ _ _) fun threshold hthreshold => ?_
  refine Ensures.bind (ensures_true _) fun ringDir _ => ?_
  refine Ensures.bind (ensures_true _) fun destDir _ => ?_
  refine Ensures.bind (ensures_true _) fun backlogDir _ => ?_
  refine Ensures.bind (ensures_true _) fun jsonSpool _ => ?_
  refine Ensures.bind (ensures_true _) fun moverLog _ => ?_
  refine Ensures.bind (ensures_promptInt _ _ _ _) fun soft hsoft => ?_
  refine Ensures.bind (ensures_promptInt _ _ _ _) fun hard hhard => ?_
  exact Ensures.pure ⟨hinterface, hsnaplen, hrotate, hzeek, hfanout, hthreshold, hsoft, hhard⟩

/-- The soft limit passes the adjustment as a valid one unless the hard limit is 1. -/
theorem disk_valid_iff {soft hard : Int} (hs : 1 ≤ soft ∧ soft ≤ 99) (hh : 1 ≤ hard ∧ hard ≤ 99) :
    (1 ≤ (if soft ≥ hard then hard - 1 else soft) ∧ (if soft ≥ hard then hard - 1 else soft) < hard ∧ hard ≤ 99) ↔
      hard ≠ 1 := by
  split_ifs with hge <;> omega

theorem guardrails_eq {r : Replies F} {s t : Session} (h : guardrails r s = some (cfg, t)) :
    cfg = { r.cfg with capture := { r.cfg.capture with
      diskSoftPct := if r.soft ≥ r.hard then r.hard - 1 else r.soft
      diskHardPct := r.hard } } := by
  unfold guardrails at h
  split_ifs at h with hge
  · obtain ⟨_, u, -, hpure⟩ := bind_some.mp h
    cases hpure
    simp [hge]
  · cases h
    simp [hge]

theorem Replies.Checked.valid_iff {r : Replies F} (hr : r.Checked m) {s t : Session}
    (h : guardrails r s = some (cfg, t)) : Valid m cfg ↔ r.hard ≠ 1 := by
  rw [← disk_valid_iff hr.soft hr.hard]
  cases guardrails_eq h
  refine ⟨fun hv => hv.disk, fun hd => ?_⟩
  exact ⟨hr.snaplen, hr.rotateSeconds, hr.zeekWorkers, hr.fanoutId, hr.bufferThreshold, hd⟩

/-- An interactive run is its questions and then the adjustment. -/
theorem written_interactive {answers : List String} :
    written m inPlace false answers = some cfg ↔
      ∃ r t u, askAll m (defaults m.floats) ⟨answers, ["== SEER Setup Wizard =="]⟩ = some (r, t) ∧
        guardrails r t = some (cfg, u) := by
  unfold written main
  rw [Option.map_eq_some_iff]
  refine ⟨fun h => ?_, fun h => ?_⟩
  · obtain ⟨⟨c, u⟩, h, rfl⟩ := h
    obtain ⟨_, s, hs, h⟩ := bind_some.mp h
    cases hs
    obtain ⟨r, t, hr, h⟩ := bind_some.mp h
    exact ⟨r, t, u, hr, h⟩
  · obtain ⟨r, t, u, hr, h⟩ := h
    exact ⟨(cfg, u), bind_some.mpr ⟨(), _, rfl, bind_some.mpr ⟨r, t, hr, h⟩⟩, rfl⟩

theorem written_nonInteractive {answers : List String} :
    written m inPlace true answers = some cfg ↔ cfg = pickInterface m (defaults m.floats) := by
  unfold written main
  constructor
  · intro h
    cases h
    rfl
  · rintro rfl
    rfl

theorem pickInterface_eq (m : Machine F) (cfg : Config F) :
    ∃ name, pickInterface m cfg = { cfg with interface := name } := by
  unfold pickInterface
  split_ifs
  · exact ⟨cfg.interface, rfl⟩
  · split
    next name _ => exact ⟨name, rfl⟩
    next => exact ⟨cfg.interface, rfl⟩

end

/-- The reply to the question for the hard limit is not 1; and without questions there
are two CPUs. -/
def Sensible (m : Machine F) (answers : List String) (nonInteractive : Bool) : Prop :=
  if nonInteractive then 2 ≤ m.cpus
  else ∀ r t, askAll m (defaults m.floats) ⟨answers, ["== SEER Setup Wizard =="]⟩ = some (r, t) → r.hard ≠ 1

/-- **When the configuration written is valid.** For every machine, whatever is in
place and however the questions are answered: exactly when the hard limit accepted is
not 1, or, without questions, when the machine has two CPUs. -/
theorem wizard_writes_valid_iff (m : Machine F) (inPlace : Option (Config F)) (nonInteractive : Bool)
    (answers : List String) (cfg : Config F) (h : written m inPlace nonInteractive answers = some cfg) :
    Valid m cfg ↔ Sensible m answers nonInteractive := by
  cases nonInteractive with
  | true =>
    cases written_nonInteractive.mp h
    obtain ⟨name, hname⟩ := pickInterface_eq m (defaults m.floats)
    rw [hname, Sensible, if_pos rfl]
    refine ⟨fun hv => ?_, fun hcpus => ?_⟩
    · have hzeek : (2 : Int) ≤ m.cpus := hv.zeekWorkers.2
      omega
    · have hzeek : (2 : Int) ≤ m.cpus := by omega
      constructor <;> simp [defaults, hzeek]
  | false =>
    obtain ⟨r, t, u, hr, hg⟩ := written_interactive.mp h
    rw [(ensures_askAll m _ _ _ _ hr).valid_iff hg, Sensible, if_neg Bool.false_ne_true]
    refine ⟨fun hne r' t' hr' => ?_, fun hall => hall r t hr⟩
    cases hr.symm.trans hr'
    exact hne

/-- Numbers of the bench, in tenths, of which 0.5 is read and written. -/
def benchFloats : Floats Nat where
  ofText := fun s => if s = "0.5" then some 5 else none
  toText := fun _ => "0.5"
  lt := fun x y => decide (x < y)
  tenth := 1
  half := 5
  five := 50
  ofText_half := rfl
  tenth_le_half := rfl
  half_le_five := rfl

/-- A machine with `enp2s0`. -/
def bench (cpus : Nat) : Machine Nat where
  floats := benchFloats
  cpuCount := some cpus
  netExists := fun name => name = "enp2s0"
  netNames := ["lo", "enp2s0"]

/-- Every default accepted, on a machine with four CPUs. -/
theorem wizard_writes_valid_defaults :
    written (bench 4) none false (List.replicate 14 "") = some (defaults benchFloats) ∧
    (Valid (bench 4) (defaults benchFloats) ↔ Sensible (bench 4) (List.replicate 14 "") false) :=
  ⟨by decide +kernel, wizard_writes_valid_iff _ none _ _ _ (by decide +kernel)⟩

/-- A hard limit of 1 is accepted and makes the soft limit 0; and without questions two
Zeek workers are written for one CPU. -/
theorem wizard_writes_invalid :
    (written (bench 4) none false (List.replicate 13 "" ++ ["1"])).map (fun c =>
      (c.capture.diskSoftPct, c.capture.diskHardPct)) = some (0, 1) ∧
    (∀ cfg, written (bench 4) none false (List.replicate 13 "" ++ ["1"]) = some cfg → ¬ Valid (bench 4) cfg) ∧
    written (bench 1) none true [] = some (defaults benchFloats) ∧
    ¬ Valid (bench 1) (defaults benchFloats) := by
  have hlimits : (written (bench 4) none false (List.replicate 13 "" ++ ["1"])).map (fun c =>
      (c.capture.diskSoftPct, c.capture.diskHardPct)) = some (0, 1) := by decide +kernel
  refine ⟨hlimits, fun cfg hcfg hv => ?_, by decide +kernel, fun hv => ?_⟩
  · rw [hcfg, Option.map_some] at hlimits
    have hsoft : cfg.capture.diskSoftPct = 0 := congrArg Prod.fst (Option.some.inj hlimits)
    have hlo := hv.disk.1
    omega
  · have hzeek : (2 : Int) ≤ (bench 1).cpus := hv.zeekWorkers.2
    exact absurd hzeek (by decide)

/-! ## Running it again -/

section
variable {m : Machine F}

theorem orDefault_empty (default : String) : orDefault default "" = default := rfl

theorem acceptInt_toString {lo hi : Option Int} {default n : Int} (h0 : 0 ≤ default)
    (h : acceptInt lo hi (toString default) = some n) : n = default := by
  obtain ⟨k, rfl⟩ := Int.eq_ofNat_of_zero_le h0
  have hread : PyStr.int (toString (k : Int)) = some (k : Int) := PyStr.int_toString k
  unfold acceptInt at h
  simp only [hread] at h
  split_ifs at h
  cases h
  rfl

theorem acceptInt_default {lo hi default : Int} (h0 : 0 ≤ default) (hlo : lo ≤ default) (hhi : default ≤ hi) :
    acceptInt (some lo) (some hi) (toString default) = some default := by
  obtain ⟨k, rfl⟩ := Int.eq_ofNat_of_zero_le h0
  have hread : PyStr.int (toString (k : Int)) = some (k : Int) := PyStr.int_toString k
  unfold acceptInt
  simp only [hread, Option.any_some]
  rw [if_neg (by simp only [Bool.or_eq_true, decide_eq_true_eq, not_or]; omega)]

theorem accepts_promptInt (label : String) (lo hi : Option Int) {default : Int} (h0 : 0 ≤ default) :
    Accepts (promptInt label default lo hi) default :=
  Accepts.askUntil fun _ h => acceptInt_toString h0 h

theorem takes_promptInt (label : String) {lo hi default : Int} (h0 : 0 ≤ default) (hlo : lo ≤ default)
    (hhi : default ≤ hi) : Takes (promptInt label default (some lo) (some hi)) 1 default :=
  Takes.askUntil (acceptInt_default h0 hlo hhi)

theorem accepts_promptStr (label default : String) : Accepts (promptStr label default) default :=
  Accepts.bind (Accepts.askUntil fun _ h => (Option.some.inj h).symm) Accepts.pure

theorem takes_promptStr (label default : String) : Takes (promptStr label default) 1 default := by
  have hpure : Takes (pure (orDefault default "")) 0 default := by
    rw [orDefault_empty]
    exact Takes.pure
  exact Takes.bind (f := fun answer => pure (orDefault default answer)) (Takes.askUntil rfl) hpure

theorem acceptFloat_half (fl : Floats F) :
    acceptFloat fl (some fl.tenth) (some fl.five) (fl.toText fl.half) = some fl.half := by
  simp [acceptFloat, fl.ofText_half, fl.tenth_le_half, fl.half_le_five]

theorem accepts_promptFloat (fl : Floats F) (label : String) :
    Accepts (promptFloat fl label fl.half (some fl.tenth) (some fl.five)) fl.half := by
  refine Accepts.askUntil fun x h => ?_
  simp only [orDefault_empty, acceptFloat_half, Option.some.injEq] at h
  exact h.symm

theorem takes_promptFloat (fl : Floats F) (label : String) :
    Takes (promptFloat fl label fl.half (some fl.tenth) (some fl.five)) 1 fl.half :=
  Takes.askUntil (by rw [orDefault_empty, acceptFloat_half])

theorem accepts_promptInterface (m : Machine F) (default : String) :
    Accepts (promptInterface m default) default := by
  refine Accepts.askUntil fun iface h => ?_
  by_cases hexists : ifaceExists m default = true
  · simp only [orDefault_empty, hexists, if_true, Option.some.injEq] at h
    exact h.symm
  · simp [orDefault_empty, hexists] at h

theorem takes_promptInterface {default : String} (h : ifaceExists m default = true) :
    Takes (promptInterface m default) 1 default :=
  Takes.askUntil (by simp [orDefault_empty, h])

/-- The defaults as replies. -/
def defaultReplies (fl : Floats F) : Replies F := ⟨defaults fl, 80, 90⟩

theorem accepts_askAll (m : Machine F) : Accepts (askAll m (defaults m.floats)) (defaultReplies m.floats) := by
  refine Accepts.bind (accepts_promptInterface m _) ?_
  refine Accepts.bind (accepts_promptInt _ _ _ (by simp [defaults])) ?_
  refine Accepts.bind (accepts_promptInt _ _ _ (by simp [defaults])) ?_
  refine Accepts.bind (accepts_promptInt _ _ _ (by simp [defaults])) ?_
  refine Accepts.bind (accepts_promptInt _ _ _ (by simp [defaults])) ?_
  refine Accepts.bind (accepts_promptFloat m.floats _) ?_
  refine Accepts.bind (accepts_promptInt _ _ _ (by simp [defaults])) ?_
  refine Accepts.bind (accepts_promptStr _ _) ?_
  refine Accepts.bind (accepts_promptStr _ _) ?_
  refine Accepts.bind (accepts_promptStr _ _) ?_
  refine Accepts.bind (accepts_promptStr _ _) ?_
  refine Accepts.bind (accepts_promptStr _ _) ?_
  refine Accepts.bind (accepts_promptInt _ _ _ (by simp [defaults])) ?_
  refine Accepts.bind (accepts_promptInt _ _ _ (by simp [defaults])) ?_
  exact Accepts.pure

theorem takes_askAll (hiface : ifaceExists m "enp2s0" = true) (hcpus : 2 ≤ m.cpus) :
    Takes (askAll m (defaults m.floats)) 14 (defaultReplies m.floats) := by
  have hint : ∀ (label : String) (lo hi default : Int), 0 ≤ default → lo ≤ default → default ≤ hi →
      Takes (promptInt label default (some lo) (some hi)) 1 default :=
    fun label lo hi default h0 hlo hhi => takes_promptInt label h0 hlo hhi
  refine Takes.bind (m := 1) (n := 13) (takes_promptInterface hiface) ?_
  refine Takes.bind (m := 1) (n := 12) (hint _ 64 65535 128 (by decide) (by decide) (by decide)) ?_
  refine Takes.bind (m := 1) (n := 11) (hint _ 5 300 20 (by decide) (by decide) (by decide)) ?_
  refine Takes.bind (m := 1) (n := 10) (hint _ 1 m.cpus 2 (by decide) (by decide) (by omega)) ?_
  refine Takes.bind (m := 1) (n := 9) (hint _ 1 65535 42 (by decide) (by decide) (by decide)) ?_
  refine Takes.bind (m := 1) (n := 8) (takes_promptFloat m.floats _) ?_
  refine Takes.bind (m := 1) (n := 7) (hint _ 2 999 4 (by decide) (by decide) (by decide)) ?_
  refine Takes.bind (m := 1) (n := 6) (takes_promptStr _ _) ?_
  refine Takes.bind (m := 1) (n := 5) (takes_promptStr _ _) ?_
  refine Takes.bind (m := 1) (n := 4) (takes_promptStr _ _) ?_
  refine Takes.bind (m := 1) (n := 3) (takes_promptStr _ _) ?_
  refine Takes.bind (m := 1) (n := 2) (takes_promptStr _ _) ?_
  refine Takes.bind (m := 1) (n := 1) (hint _ 1 99 80 (by decide) (by decide) (by decide)) ?_
  refine Takes.bind (m := 1) (n := 0) (hint _ 1 99 90 (by decide) (by decide) (by decide)) ?_
  exact Takes.pure

theorem guardrails_default (fl : Floats F) (s : Session) :
    guardrails (defaultReplies fl) s = some (defaults fl, s) := rfl

/-- Whatever is in place, accepting every default can only write the defaults. -/
theorem rerun_writes_defaults {inPlace : Option (Config F)} {k : Nat} {cfg : Config F}
    (h : written m inPlace false (List.replicate k "") = some cfg) : cfg = defaults m.floats := by
  obtain ⟨r, t, u, hr, hg⟩ := written_interactive.mp h
  obtain ⟨rfl, -⟩ := accepts_askAll m _ _ _ _ hr
  rw [guardrails_default] at hg
  cases hg
  rfl

theorem defaults_pass {inPlace : Option (Config F)} {answers : List String}
    (h : written m inPlace false answers = some (defaults m.floats)) :
    ifaceExists m "enp2s0" = true ∧ 2 ≤ m.cpus := by
  obtain ⟨r, t, u, hr, hg⟩ := written_interactive.mp h
  have hchecked := ensures_askAll m _ _ _ _ hr
  have hsame := guardrails_eq hg
  have hiface : "enp2s0" = r.cfg.interface := congrArg Config.interface hsame
  have hzeek : (2 : Int) = r.cfg.zeekWorkers := congrArg Config.zeekWorkers hsame
  have hle := hchecked.zeekWorkers.2
  refine ⟨?_, by omega⟩
  rw [hiface]
  exact hchecked.interface

theorem rerun_ends (inPlace : Option (Config F)) (hiface : ifaceExists m "enp2s0" = true) (hcpus : 2 ≤ m.cpus) :
    written m inPlace false (List.replicate 14 "") = some (defaults m.floats) := by
  obtain ⟨printed, hasked⟩ := takes_askAll hiface hcpus [] ["== SEER Setup Wizard =="]
  rw [List.append_nil] at hasked
  exact written_interactive.mpr ⟨_, _, _, hasked, guardrails_default m.floats _⟩

end

/-- **When running the wizard again keeps the configuration.** Of the configurations
that an interactive run on the machine wrote, those are written again by answering
nothing, in finitely many questions, that are the defaults. -/
theorem wizard_rerun_keeps_iff (m : Machine F) (cfg : Config F)
    (h : ∃ inPlace answers, written m inPlace false answers = some cfg) :
    (∃ k, written m (some cfg) false (List.replicate k "") = some cfg) ↔ cfg = defaults m.floats := by
  refine ⟨fun ⟨k, hk⟩ => rerun_writes_defaults hk, fun hcfg => ⟨14, ?_⟩⟩
  subst hcfg
  obtain ⟨inPlace, answers, h⟩ := h
  obtain ⟨hiface, hcpus⟩ := defaults_pass h
  exact rerun_ends _ hiface hcpus

/-- The defaults are kept. -/
theorem wizard_rerun_keeps_defaults :
    ∃ k, written (bench 4) (some (defaults benchFloats)) false (List.replicate k "") =
      some (defaults benchFloats) :=
  (wizard_rerun_keeps_iff (bench 4) (defaults benchFloats)
    ⟨none, List.replicate 14 "", by decide +kernel⟩).mpr rfl

/-- A snaplen of 256 goes back to 128; and with one CPU, no number of empty answers ends
the run. -/
theorem wizard_rerun_reverts :
    (∃ cfg, written (bench 4) none false ("" :: "256" :: List.replicate 12 "") = some cfg ∧
      cfg.capture.snaplen = 256 ∧ ∀ k, written (bench 4) (some cfg) false (List.replicate k "") ≠ some cfg) ∧
    ∃ cfg, written (bench 1) none false (["", "", "", "1"] ++ List.replicate 10 "") = some cfg ∧
      ∀ k, written (bench 1) (some cfg) false (List.replicate k "") = none := by
  refine ⟨⟨{ defaults benchFloats with capture := ⟨256, 20, 80, 90⟩ }, by decide +kernel, rfl, fun k hk => ?_⟩,
    ⟨{ defaults benchFloats with zeekWorkers := 1 }, by decide +kernel, fun k => ?_⟩⟩
  · exact absurd (rerun_writes_defaults hk) (by decide)
  · rw [Option.eq_none_iff_forall_ne_some]
    intro cfg hcfg
    cases rerun_writes_defaults hcfg
    exact absurd (defaults_pass hcfg).2 (by decide)

end SeerSensor.Wizard
