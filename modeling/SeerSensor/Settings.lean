/-
What each program makes of `seer.yml`.

They all load the one document and go about it differently. The mover has keys it
cannot do without, and ends at import when one is missing or of the wrong type. The
exporter survives an unreadable document, but not a section that is no mapping, nor
candidates that do not join to a text. The check and the installer ask for one value
at a time.
-/
import SeerSensor.Lib.PyValue
import SeerSensor.MainLoop
import SeerSensor.MoveOldest
import SeerSensor.Wizard

namespace SeerSensor.Settings

open PyValue

/-- What loading `/opt/seer/etc/seer.yml` gives. -/
abbrev Document := Except Raised Value

/-- The default of `mount_candidates`. -/
def threeMounts : Value := .list (["/mnt/seer_external", "/mnt/SEER_EXT", "/media/seer_external"].map .str)

/-! ## The readers -/

/-- What the mover has at its module level. -/
structure MoverSettings where
  ring : String
  backlog : String
  thresh : Int
  logPath : String
  mountCandidates : Value
  minFreePct : Value

/-- The module level of `move_oldest.py`. -/
def moverBoot (doc : Document) : Except Raised MoverSettings := do
  let cfg ← doc
  let ring ← (← cfg.index "ring_dir").text
  let backlog ← (← cfg.get "backlog_dir" (.str "/opt/seer/var/backlog")).text
  let thresh ← (← cfg.index "buffer_threshold").toInt
  let logPath ← (← cfg.index "mover_log").text
  let mountCandidates ← (← cfg.get "export" (.dict [])).get "mount_candidates" threeMounts
  let minFreePct ← (← cfg.get "export" (.dict [])).get "min_free_pct" (.int 2)
  pure { ring, backlog, thresh, logPath, mountCandidates, minFreePct }

/-- `read_config` of the exporter and `read_cfg` of the console. -/
def readConfig : Document → Value
  | .ok v => if v.truthy then v else .dict []
  | .error _ => .dict []

/-- What the exporter has before its loop. -/
structure ExporterSettings where
  backlogDir : Value
  rotateSeconds : Value
  mountCandidates : List String
  minFreePct : Value
  pollInterval : Value

/-- `main_loop` up to its loop. -/
def exporterBoot (doc : Document) : Except Raised ExporterSettings := do
  let cfg := readConfig doc
  let backlogDir ← cfg.get "backlog_dir" (.str "/opt/seer/var/backlog")
  let rotateSeconds ← (← cfg.get "capture" (.dict [])).get "rotate_seconds" (.int 20)
  let candidates ← (← cfg.get "export" (.dict [])).get "mount_candidates" threeMounts
  let minFreePct ← (← cfg.get "export" (.dict [])).get "min_free_pct" (.int 2)
  let pollInterval ← (← cfg.get "export" (.dict [])).get "poll_interval" (.int 2)
  -- the third line of the log joins the candidates
  let mountCandidates ← candidates.texts
  pure { backlogDir, rotateSeconds, mountCandidates, minFreePct, pollInterval }

/-- What the check has before it looks. -/
structure VerifierSettings where
  ringDir : Value
  thresh : Int
  destDir : Value
  backlogDir : Value
  iface : Value
  jsonSpool : Value

/-- The first lines of `seer-verify-install.sh`: a reader that fails ends the script. -/
def verifierBoot (doc : Document) : Except Raised VerifierSettings := do
  let cfg ← doc
  let ringDir ← cfg.get "ring_dir" (.str "/var/seer/pcap_ring")
  let thresh ← (← cfg.get "buffer_threshold" (.int 4)).toInt
  let destDir ← cfg.get "dest_dir" (.str "/opt/seer/var/queue")
  let backlogDir ← cfg.get "backlog_dir" (.str "/opt/seer/var/backlog")
  let iface ← cfg.get "interface" (.str "enp1s0")
  let jsonSpool ← cfg.get "json_spool" (.str "/var/seer/json_spool")
  pure { ringDir, thresh, destDir, backlogDir, iface, jsonSpool }

/-- A value read under a blanket handler. -/
def orDefault {α : Type} (x : Except Raised α) (default : α) : α :=
  match x with
  | .ok a => a
  | .error _ => default

/-- `INTERFACE` of `install.sh`. -/
def installerInterface (doc : Document) : Value :=
  orDefault (do (← doc).get "interface" (.str "enp2s0")) (.str "enp2s0")

/-- `WAIT_LINK_TIMEOUT` of `install.sh` and `timeout` of `install_wait_helper`. -/
def waitLinkTimeout (doc : Document) : Int :=
  orDefault (do
    let v ← doc
    (← (if v.truthy then v else .dict []).get "wait_link_timeout" (.int 60)).toInt) 60

/-- `rotate` of `seer-capture.sh`. -/
def rotate (doc : Document) : Value :=
  orDefault (do (← (← doc).get "capture" (.dict [])).get "rotate_seconds" (.int 20)) (.int 20)

/-- The mover's settings as its functions use them. A threshold below zero is never
missed. -/
def MoverSettings.config (s : MoverSettings) : Option MoveOldest.Config := do
  let mountCandidates ← s.mountCandidates.texts.toOption
  let minFreePct ← s.minFreePct.number
  some { thresh := s.thresh.toNat, backlogDir := s.backlog, mountCandidates, minFreePct }

/-- The exporter's settings as its functions use them. -/
def ExporterSettings.config (e : ExporterSettings) : Option MainLoop.Config := do
  let rotateSeconds ← e.rotateSeconds.number
  let minFreePct ← e.minFreePct.number
  some { rotateSeconds, mountCandidates := e.mountCandidates, minFreePct }

/-! ## Any document -/

section
variable {doc : Document} {s : MoverSettings} {e : ExporterSettings} {items : List (String × Value)}

theorem moverBoot_eq_ok (h : moverBoot doc = .ok s) : ∃ items exports, doc = .ok (.dict items) ∧
    items.lookup "ring_dir" = some (.str s.ring) ∧
    (items.lookup "backlog_dir").getD (.str "/opt/seer/var/backlog") = .str s.backlog ∧
    (∃ v, items.lookup "buffer_threshold" = some v ∧ v.toInt = .ok s.thresh) ∧
    (items.lookup "export").getD (.dict []) = .dict exports ∧
    s.mountCandidates = (exports.lookup "mount_candidates").getD threeMounts ∧
    s.minFreePct = (exports.lookup "min_free_pct").getD (.int 2) := by
  obtain ⟨cfg, rfl, hcfg⟩ := bind_eq_ok.mp h
  obtain ⟨v, hindex, hrest⟩ := bind_eq_ok.mp hcfg
  obtain ⟨items, rfl, hring⟩ := index_eq_ok.mp hindex
  simp only [bind_eq_ok, index_eq_ok, get_eq_ok, text_eq_ok, Value.dict.injEq, exists_eq_left'] at hrest
  obtain ⟨ring, rfl, _, rfl, backlog, hbacklog, v, hlookup, thresh, hthresh, _, -, logPath, -, _, rfl, candidates,
    ⟨exports, hexports, hcandidates⟩, _, rfl, minFree, ⟨exports', hexports', hfree⟩, hs⟩ := hrest
  cases hexports.symm.trans hexports'
  cases hs
  exact ⟨items, exports, rfl, hring, hbacklog, ⟨v, hlookup, hthresh⟩, hexports, hcandidates, hfree⟩

/-- When the exporter starts on a mapping that is not empty, and what it then has. -/
theorem exporterBoot_eq_ok (hne : items ≠ []) : exporterBoot (.ok (.dict items)) = .ok e ↔
    ∃ captures exports, (items.lookup "capture").getD (.dict []) = .dict captures ∧
      (items.lookup "export").getD (.dict []) = .dict exports ∧
      ((exports.lookup "mount_candidates").getD threeMounts).texts = .ok e.mountCandidates ∧
      e.backlogDir = (items.lookup "backlog_dir").getD (.str "/opt/seer/var/backlog") ∧
      e.rotateSeconds = (captures.lookup "rotate_seconds").getD (.int 20) ∧
      e.minFreePct = (exports.lookup "min_free_pct").getD (.int 2) ∧
      e.pollInterval = (exports.lookup "poll_interval").getD (.int 2) := by
  have hread : readConfig (.ok (.dict items)) = .dict items := by simp [readConfig, Value.truthy, hne]
  simp only [exporterBoot, hread, bind_eq_ok, get_eq_ok, Value.dict.injEq, exists_eq_left']
  constructor
  · rintro ⟨_, rfl, _, rfl, rotate, ⟨captures, hcaptures, rfl⟩, _, rfl, _, ⟨exports, hexports, rfl⟩, _, rfl, free,
      ⟨exports', hexports', rfl⟩, _, rfl, poll, ⟨exports'', hexports'', rfl⟩, cs, htexts, h⟩
    cases hexports.symm.trans hexports'
    cases hexports.symm.trans hexports''
    cases h
    exact ⟨captures, exports, hcaptures, hexports, htexts, rfl, rfl, rfl, rfl⟩
  · rintro ⟨captures, exports, hcaptures, hexports, htexts, hbacklog, hrotate, hfree, hpoll⟩
    obtain ⟨backlogDir, rotateSeconds, mountCandidates, minFreePct, pollInterval⟩ := e
    cases hbacklog
    cases hrotate
    cases hfree
    cases hpoll
    exact ⟨_, rfl, _, rfl, _, ⟨captures, hcaptures, rfl⟩, _, rfl, _, ⟨exports, hexports, rfl⟩, _, rfl, _,
      ⟨exports, hexports, rfl⟩, _, rfl, _, ⟨exports, hexports, rfl⟩, _, htexts, rfl⟩

theorem verifierBoot_dict {thresh : Int}
    (h : ((items.lookup "buffer_threshold").getD (.int 4)).toInt = .ok thresh) :
    verifierBoot (.ok (.dict items)) = .ok
      { ringDir := (items.lookup "ring_dir").getD (.str "/var/seer/pcap_ring")
        thresh
        destDir := (items.lookup "dest_dir").getD (.str "/opt/seer/var/queue")
        backlogDir := (items.lookup "backlog_dir").getD (.str "/opt/seer/var/backlog")
        iface := (items.lookup "interface").getD (.str "enp1s0")
        jsonSpool := (items.lookup "json_spool").getD (.str "/var/seer/json_spool") } := by
  refine bind_eq_ok.mpr ⟨_, rfl, bind_eq_ok.mpr ⟨_, rfl, bind_eq_ok.mpr ⟨_, rfl, bind_eq_ok.mpr ⟨thresh, h, ?_⟩⟩⟩⟩
  rfl

theorem interface_default_iff : (items.lookup "interface").getD (.str "enp1s0") =
    installerInterface (.ok (.dict items)) ↔ ∃ iface, items.lookup "interface" = some iface := by
  show (items.lookup "interface").getD (.str "enp1s0") = (items.lookup "interface").getD (.str "enp2s0") ↔ _
  cases items.lookup "interface" with
  | some iface => exact ⟨fun _ => ⟨iface, rfl⟩, fun _ => rfl⟩
  | none =>
    constructor
    · intro h
      exact absurd (Value.str.inj h) (by decide)
    · rintro ⟨_, h⟩
      cases h

theorem verifier_agrees (hs : moverBoot doc = .ok s) : ∃ v, verifierBoot doc = .ok v ∧
    v.ringDir = .str s.ring ∧ v.backlogDir = .str s.backlog ∧ v.thresh = s.thresh ∧
    (v.iface = installerInterface doc ↔ ∃ items iface, doc = .ok (.dict items) ∧
      items.lookup "interface" = some iface) := by
  obtain ⟨items, exports, rfl, hring, hbacklog, ⟨t, hlookup, hthresh⟩, -⟩ := moverBoot_eq_ok hs
  refine ⟨_, verifierBoot_dict (by rw [hlookup]; exact hthresh), ?_, hbacklog, rfl, ?_⟩
  · show (items.lookup "ring_dir").getD _ = _
    rw [hring]
    rfl
  · rw [interface_default_iff]
    constructor
    · rintro ⟨iface, hiface⟩
      exact ⟨items, iface, rfl, hiface⟩
    · rintro ⟨_, iface, hdoc, hiface⟩
      cases hdoc
      exact ⟨iface, hiface⟩

end

section
variable {F : Type} {m : Wizard.Machine F} {inPlace : Option (Wizard.Config F)} {nonInteractive : Bool}
  {answers : List String} {cfg : Wizard.Config F}

/-- `yaml.safe_dump` and `yaml.safe_load`. -/
structure PyYaml where
  safeDump : Value → List Char
  safeLoad : List Char → Document

/-- What a program loads of a value that was dumped. -/
def PyYaml.reread (yaml : PyYaml) (v : Value) : Document := yaml.safeLoad (yaml.safeDump v)

/-- The value comes back as it was. -/
def PyYaml.Keeps (yaml : PyYaml) (v : Value) : Prop := yaml.reread v = .ok v

/-- The mapping that `write_yaml` dumps. -/
def document (ofFloat : F → Value) (cfg : Wizard.Config F) : Value :=
  .dict
    [("interface", .str cfg.interface),
      ("fanout_id", .int cfg.fanoutId),
      ("zeek_workers", .int cfg.zeekWorkers),
      ("refresh_interval", ofFloat cfg.refreshInterval),
      ("buffer_threshold", .int cfg.bufferThreshold),
      ("ring_dir", .str cfg.ringDir),
      ("dest_dir", .str cfg.destDir),
      ("backlog_dir", .str cfg.backlogDir),
      ("json_spool", .str cfg.jsonSpool),
      ("mover_log", .str cfg.moverLog),
      ("capture", .dict
        [("snaplen", .int cfg.capture.snaplen),
          ("rotate_seconds", .int cfg.capture.rotateSeconds),
          ("disk_soft_pct", .int cfg.capture.diskSoftPct),
          ("disk_hard_pct", .int cfg.capture.diskHardPct)]),
      ("export", .dict
        [("mount_candidates", .list (cfg.exportSection.mountCandidates.map .str)),
          ("min_free_pct", .int cfg.exportSection.minFreePct),
          ("poll_interval", .int cfg.exportSection.pollInterval)]),
      ("wait_link_timeout", .int cfg.waitLinkTimeout)]

/-- What the wizard never asks for stays as it was. -/
theorem ensures_unasked (m : Wizard.Machine F) (cfg : Wizard.Config F) : Prompt.Ensures (Wizard.askAll m cfg) fun r =>
    r.cfg.exportSection = cfg.exportSection ∧ r.cfg.waitLinkTimeout = cfg.waitLinkTimeout := by
  iterate 14 refine Prompt.Ensures.bind (Wizard.ensures_true _) fun _ _ => ?_
  exact Prompt.Ensures.pure ⟨rfl, rfl⟩

theorem written_facts (h : Wizard.written m inPlace nonInteractive answers = some cfg) :
    (2 ≤ cfg.bufferThreshold ∧ cfg.bufferThreshold ≤ 999) ∧
      cfg.exportSection = (Wizard.defaults m.floats).exportSection ∧ cfg.waitLinkTimeout = 60 := by
  cases nonInteractive with
  | true =>
    cases Wizard.written_nonInteractive.mp h
    obtain ⟨name, hname⟩ := Wizard.pickInterface_eq m (Wizard.defaults m.floats)
    rw [hname]
    exact ⟨(by decide : (2 : Int) ≤ 4 ∧ (4 : Int) ≤ 999), rfl, rfl⟩
  | false =>
    obtain ⟨r, t, u, hr, hg⟩ := Wizard.written_interactive.mp h
    cases Wizard.guardrails_eq hg
    exact ⟨(Wizard.ensures_askAll m _ _ _ _ hr).bufferThreshold, ensures_unasked m _ _ _ _ hr⟩

/-- What the mover takes from the document. -/
def moverOf (cfg : Wizard.Config F) : MoverSettings where
  ring := cfg.ringDir
  backlog := cfg.backlogDir
  thresh := cfg.bufferThreshold
  logPath := cfg.moverLog
  mountCandidates := .list (cfg.exportSection.mountCandidates.map .str)
  minFreePct := .int cfg.exportSection.minFreePct

/-- And as its functions use them. -/
def configOf (cfg : Wizard.Config F) : MoveOldest.Config where
  thresh := cfg.bufferThreshold.toNat
  backlogDir := cfg.backlogDir
  mountCandidates := cfg.exportSection.mountCandidates
  minFreePct := cfg.exportSection.minFreePct

theorem moverBoot_document (ofFloat : F → Value) (cfg : Wizard.Config F) :
    moverBoot (.ok (document ofFloat cfg)) = .ok (moverOf cfg) := rfl

theorem config_moverOf (cfg : Wizard.Config F) : (moverOf cfg).config = some (configOf cfg) := by
  rw [MoverSettings.config, moverOf, texts_strs]
  rfl

theorem exporterBoot_document (ofFloat : F → Value) (cfg : Wizard.Config F) :
    exporterBoot (.ok (document ofFloat cfg)) = .ok
      { backlogDir := .str cfg.backlogDir
        rotateSeconds := .int cfg.capture.rotateSeconds
        mountCandidates := cfg.exportSection.mountCandidates
        minFreePct := .int cfg.exportSection.minFreePct
        pollInterval := .int cfg.exportSection.pollInterval } := by
  refine (exporterBoot_eq_ok (by simp)).mpr ⟨_, _, rfl, rfl, texts_strs _, rfl, rfl, rfl, rfl⟩

end

/-- **Every program starts on what the wizard writes**, on every run of it that gets that
far and whose dump PyYAML gives back: the mover, the exporter and the check, with values
of the types their functions use. The check asks about the interface that is set up; the
drives and the time to wait for a link, which the wizard does not ask for, are the
defaults. -/
theorem wizard_starts_all {F : Type} (m : Wizard.Machine F) (inPlace : Option (Wizard.Config F))
    (nonInteractive : Bool) (answers : List String) (cfg : Wizard.Config F)
    (h : Wizard.written m inPlace nonInteractive answers = some cfg) (ofFloat : F → Value) (yaml : PyYaml)
    (hyaml : yaml.Keeps (document ofFloat cfg)) :
    ∃ s e v c l, moverBoot (yaml.reread (document ofFloat cfg)) = .ok s ∧
      exporterBoot (yaml.reread (document ofFloat cfg)) = .ok e ∧
      verifierBoot (yaml.reread (document ofFloat cfg)) = .ok v ∧
      s.config = some c ∧ e.config = some l ∧ (2 ≤ c.thresh ∧ c.thresh ≤ 999) ∧
      c.mountCandidates = ["/mnt/seer_external", "/mnt/SEER_EXT", "/media/seer_external"] ∧ c.minFreePct = 2 ∧
      v.iface = installerInterface (yaml.reread (document ofFloat cfg)) ∧
      waitLinkTimeout (yaml.reread (document ofFloat cfg)) = 60 := by
  rw [PyYaml.Keeps] at hyaml
  rw [hyaml]
  obtain ⟨hthresh, hexport, htimeout⟩ := written_facts h
  obtain ⟨v, hv, -, -, -, hiface⟩ := verifier_agrees (moverBoot_document ofFloat cfg)
  refine ⟨_, _, v, _, _, moverBoot_document ofFloat cfg, exporterBoot_document ofFloat cfg, hv,
    config_moverOf cfg, rfl, ?_, ?_, ?_, hiface.mpr ⟨_, _, rfl, rfl⟩, htimeout⟩
  · show 2 ≤ cfg.bufferThreshold.toNat ∧ cfg.bufferThreshold.toNat ≤ 999
    omega
  · exact congrArg Wizard.ExportSection.mountCandidates hexport
  · show (cfg.exportSection.minFreePct : ℚ) = 2
    rw [hexport]
    rfl

/-- Enough of PyYAML for one document. -/
def benchYaml (v : Value) : PyYaml where
  safeDump _ := []
  safeLoad _ := .ok v

/-- What `refresh_interval` is when a float is counted in tenths. -/
def benchFloat (n : Nat) : Value := .float (n / 10)

theorem wizard_starts_all_defaults : ∃ s c,
    moverBoot (.ok (document benchFloat (Wizard.defaults Wizard.benchFloats))) = .ok s ∧
      s.config = some c ∧ 2 ≤ c.thresh := by
  obtain ⟨s, -, -, c, -, hs, -, -, hc, -, hthresh, -⟩ := wizard_starts_all (Wizard.bench 4) none true []
    (Wizard.defaults Wizard.benchFloats) rfl benchFloat (benchYaml _) rfl
  exact ⟨s, c, hs, hc, hthresh.1⟩

end SeerSensor.Settings
