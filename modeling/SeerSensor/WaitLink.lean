/-
How capture waits for a link, from `seer.yml` to tcpdump.

The time is read twice, by the wizard and by the installer, and each writes it into the
same drop-in of the capture unit, the wizard through a shell. systemd splits the line
again and starts `seer-wait-link.sh`, which looks once a second and ends with status 0
when the link is up, or when the time is over. A time that is no number of bash's is
over at once.

Two things can keep capture down all the same. The helper need not be there: the wizard
looks for it in `bin/` of the tree, where it is not, and writes the drop-in without it.
And systemd gives a command of `ExecStartPre` no longer than `TimeoutStartSec`.
-/
import SeerSensor.Lib.LineLog
import SeerSensor.Lib.ShellWords
import SeerSensor.Settings

namespace SeerSensor.WaitLink

open Settings (Document waitLinkTimeout)

/-! ## The drop-in -/

/-- Where the helper is installed. -/
def helper : List Char := "/usr/local/bin/seer-wait-link.sh".toList

/-- The drop-in of the capture unit. -/
def dropFile : String := "/etc/systemd/system/seer-capture@.service.d/wait-link.conf"

/-- The lines before the command. -/
def fixedLines : List (List Char) :=
  ["[Unit]".toList, "Description=Wait for link before starting capture".toList,
    "Before=seer-capture@%i.service".toList, [], "[Service]".toList]

def directive : List Char := "ExecStartPre=".toList

/-- The line of the command, up to the time. -/
def execStart : List Char := directive ++ (helper ++ [' ', '%', 'i', ' '])

/-- The lines of the drop-in. -/
def contentLines (timeout : Int) : List (List Char) := fixedLines ++ [execStart ++ (toString timeout).toList]

/-- `content` of `install_wait_helper`, and what the installer gives to `tee`. -/
def content (timeout : Int) : List Char := (contentLines timeout).flatMap (· ++ ['\n'])

/-- `cmd` of `install_wait_helper`. -/
def teeCommand (content : List Char) (file : String) : List Char :=
  "echo ".toList ++ ShellWords.quote (String.ofList content) ++ " | sudo tee ".toList ++ ShellWords.quote file ++
    " >/dev/null".toList

/-- The file that such a command writes, and its text. A backslash would mean something to
`echo`. -/
def teed : List ShellWords.Token → Option (List Char × List Char)
  | [.word first, .word text, .op bar, .word second, .word third, .word file, .op out, .word last] =>
    if [first, second, third, last] = ["echo".toList, "sudo".toList, "tee".toList, "/dev/null".toList] ∧
        bar = '|' ∧ out = '>' ∧ '\\' ∉ text then
      some (file, text ++ ['\n'])
    else
      none
  | _ => none

/-! ## systemd -/

/-- The specifiers of a word. -/
def expand (inst : List Char) : List Char → List Char
  | '%' :: 'i' :: cs => inst ++ expand inst cs
  | '%' :: '%' :: cs => '%' :: expand inst cs
  | c :: cs => c :: expand inst cs
  | [] => []

/-- What separates the words of a command. -/
def isBlank (c : Char) : Bool := c = ' ' || c = '\t'

/-- The words of the command of a line. -/
def commandOf (inst line : List Char) : Option (List (List Char)) :=
  if directive.isPrefixOf line then
    some ((((line.drop directive.length).splitOnP isBlank).filter (· ≠ [])).map (expand inst))
  else
    none

/-- The commands to be run before the unit `inst` starts. -/
def execStartPre (inst text : List Char) : List (List (List Char)) :=
  (text.splitOnP (· == '\n')).filterMap (commandOf inst)

/-! ## The helper -/

/-- What the helper sees in one round: what `cat` prints of the carrier file, if there is
one, and whether `LOWER_UP` was found. -/
structure Look where
  carrier : Option String
  lowerUp : Bool

/-- The link is seen. -/
def Look.up (l : Look) : Bool := l.carrier = some "1" || l.lowerUp

/-- How the helper ended, after how many rounds, and whether it set promiscuous mode. -/
structure Outcome where
  status : Nat
  slept : Nat
  promisc : Bool
  deriving DecidableEq

/-- A number as bash reads it. -/
def digits (ds : List Char) : Option Nat :=
  if ds ≠ [] ∧ ds.all Char.isDigit then some (Nat.ofDigitChars 10 ds 0) else none

/-- An operand of `-lt`. -/
def testInt (s : List Char) : Option Int :=
  (match s with
    | '-' :: ds => (digits ds).map fun n : Nat => -(n : Int)
    | '+' :: ds => (digits ds).map fun n : Nat => (n : Int)
    | ds => (digits ds).map fun n : Nat => (n : Int)).filter fun n => -2 ^ 63 ≤ n ∧ n < 2 ^ 63

/-- The `while` loop. -/
def loop (timeout : Int) (looks : Nat → Look) (elapsed : Nat) : Outcome :=
  if (elapsed : Int) < timeout then
    if (looks elapsed).up then ⟨0, elapsed, true⟩ else loop timeout looks (elapsed + 1)
  else
    ⟨0, elapsed, false⟩
termination_by (timeout - elapsed).toNat

/-- `seer-wait-link.sh`, given `WAIT_LINK_TIMEOUT`. -/
def waitLink (args : List (List Char)) (env : List Char) (looks : Nat → Look) : Outcome :=
  let iface := args.headD []
  let timeout := [args.getD 1 [], env, "60".toList].find? (· ≠ [])
  if iface = [] then ⟨2, 0, false⟩
  else
    match timeout.bind testInt with
    | some t => loop t looks 0
    -- `[` reports an error, which ends the loop
    | none => ⟨0, 0, false⟩

/-! ## The loop -/

section
variable {timeout : Int} {looks : Nat → Look} {elapsed : Nat}

end

/-! ## From the document to the arguments -/

theorem toList_negSucc (n : Nat) : (toString (Int.negSucc n)).toList = '-' :: (toString (n + 1)).toList := by
  show ("-" ++ toString (n + 1)).toList = _
  rw [String.toList_append]
  rfl

theorem toString_ne_nil (n : Int) : (toString n).toList ≠ [] := by
  cases n with
  | ofNat n =>
    obtain ⟨c, cs, hcs, -⟩ := PyStr.toString_head n
    show (toString n).toList ≠ []
    rw [hcs]
    exact List.cons_ne_nil c cs
  | negSucc n =>
    rw [toList_negSucc]
    exact List.cons_ne_nil _ _

theorem mem_toString {n : Int} {c : Char} (h : c ∈ (toString n).toList) : c = '-' ∨ c.isDigit = true := by
  cases n with
  | ofNat n => exact .inr (PyStr.isDigit_of_mem_toString h)
  | negSucc n =>
    rw [toList_negSucc] at h
    exact (List.mem_cons.mp h).imp id PyStr.isDigit_of_mem_toString

theorem expand_plain (inst : List Char) {cs : List Char} (h : '%' ∉ cs) : expand inst cs = cs := by
  induction cs with
  | nil => rfl
  | cons c cs ih =>
    obtain ⟨hc, hcs⟩ := not_or.mp (List.mem_cons.not.mp h)
    rw [expand.eq_3 _ _ _ (fun _ hp _ => hc hp.symm) (fun _ hp _ => hc hp.symm), ih hcs]

theorem not_mem_toString {n : Int} {c : Char} (hminus : c ≠ '-') (hdigit : c.isDigit = false) :
    c ∉ (toString n).toList := by
  intro h
  rcases mem_toString h with rfl | h
  · exact hminus rfl
  · cases hdigit.symm.trans h

theorem not_mem_contentLines {c : Char} (timeout : Int) (hfixed : ∀ l ∈ execStart :: fixedLines, c ∉ l)
    (hminus : c ≠ '-') (hdigit : c.isDigit = false) : ∀ l ∈ contentLines timeout, c ∉ l := by
  intro l hl
  rcases List.mem_append.mp hl with hl | hl
  · exact hfixed l (List.mem_cons_of_mem _ hl)
  · cases List.mem_singleton.mp hl
    rw [List.mem_append, not_or]
    exact ⟨hfixed _ (List.mem_cons_self ..), not_mem_toString hminus hdigit⟩

theorem commandOf_exec (inst : List Char) {ds : List Char} (hne : ds ≠ []) (hblank : ∀ c ∈ ds, isBlank c = false)
    (hplain : '%' ∉ ds) : commandOf inst (execStart ++ ds) = some [helper, inst, ds] := by
  have hrest : execStart ++ ds = directive ++ (helper ++ ' ' :: (['%', 'i'] ++ ' ' :: ds)) := by
    simp only [execStart, List.append_assoc, List.cons_append, List.nil_append]
  have hone : ∀ c ∈ helper, isBlank c = false := by
    have hall : helper.all (fun c => isBlank c == false) = true := rfl
    exact fun c hc => eq_of_beq (List.all_eq_true.mp hall c hc)
  have htwo : ∀ c ∈ ['%', 'i'], isBlank c = false :=
    List.forall_mem_cons.mpr ⟨rfl, List.forall_mem_singleton.mpr rfl⟩
  have hwords : (helper ++ ' ' :: (['%', 'i'] ++ ' ' :: ds)).splitOnP isBlank = [helper, ['%', 'i'], ds] := by
    rw [List.splitOnP_append_cons_of_forall_mem hone ' ' rfl, List.splitOnP_append_cons_of_forall_mem htwo ' ' rfl,
      List.splitOnP_eq_singleton hblank]
  have hhelper : '%' ∉ helper ∧ helper ≠ [] := by decide +kernel
  rw [commandOf, hrest, if_pos (List.isPrefixOf_iff_prefix.mpr (List.prefix_append _ _)), List.drop_left, hwords]
  have hexpand : expand inst ['%', 'i'] = inst := List.append_nil inst
  simp [hhelper.2, hne, expand_plain inst hhelper.1, expand_plain inst hplain, hexpand]

theorem commandOf_nil (inst : List Char) : commandOf inst [] = none := rfl

theorem commandOf_fixed (inst : List Char) : fixedLines.filterMap (commandOf inst) = [] := by
  have hnot : ∀ l ∈ fixedLines, directive.isPrefixOf l = false := by decide +kernel
  rw [List.filterMap_eq_nil_iff]
  intro l hl
  rw [commandOf, hnot l hl]
  rfl

/-- The one command of the drop-in, with or without empty lines at the end. -/
theorem execStartPre_content (inst : List Char) (timeout : Int) (blank : List (List Char))
    (hblank : ∀ l ∈ blank, l = []) :
    execStartPre inst (content timeout ++ blank.flatMap (· ++ ['\n'])) =
      [[helper, inst, (toString timeout).toList]] := by
  have hnewline : ∀ l ∈ contentLines timeout ++ blank, '\n' ∉ l := by
    intro l hl
    rcases List.mem_append.mp hl with hl | hl
    · exact not_mem_contentLines timeout (by decide +kernel) (by decide) rfl l hl
    · rw [hblank l hl]
      exact List.not_mem_nil
  have hexec : commandOf inst (execStart ++ (toString timeout).toList) =
      some [helper, inst, (toString timeout).toList] := by
    refine commandOf_exec inst (toString_ne_nil timeout) ?_ (not_mem_toString (by decide) rfl)
    intro c hc
    have hspace : c ≠ ' ' := fun h => not_mem_toString (n := timeout) (by decide) rfl (h ▸ hc)
    have htab : c ≠ '\t' := fun h => not_mem_toString (n := timeout) (by decide) rfl (h ▸ hc)
    simp [isBlank, hspace, htab]
  have hnone : (blank ++ [[]]).filterMap (commandOf inst) = [] := by
    rw [List.filterMap_eq_nil_iff]
    intro l hl
    rcases List.mem_append.mp hl with hl | hl
    · rw [hblank l hl, commandOf_nil]
    · rw [List.mem_singleton.mp hl, commandOf_nil]
  have hsplit := LineLog.splitOnP_lines hnewline List.not_mem_nil
  rw [List.flatMap_append, List.append_nil, List.append_assoc] at hsplit
  rw [execStartPre, content, hsplit, List.filterMap_append, contentLines, List.filterMap_append,
    commandOf_fixed, hnone, List.filterMap_cons, hexec]
  rfl

theorem teed_teeCommand (text : List Char) (file : String) (h : '\\' ∉ text) :
    (ShellWords.tokens (teeCommand text file)).bind teed = some (file.toList, text ++ ['\n']) := by
  have htext : Runs.run ShellWords.step ⟨[.word "echo".toList], none, .plain⟩
      (ShellWords.quote (String.ofList text)) = some ⟨[.word "echo".toList], some text, .plain⟩ := by
    rw [ShellWords.run_quote, show (String.ofList text).toList = text from String.toList_ofList]
    rfl
  have hrun : Runs.run ShellWords.step {} (teeCommand text file) = some
      ⟨[.word "echo".toList, .word text, .op '|', .word "sudo".toList, .word "tee".toList, .word file.toList, .op '>'],
        some "/dev/null".toList, .plain⟩ := by
    refine Runs.run_append.mpr ⟨⟨[.word "echo".toList, .word text, .op '|', .word "sudo".toList, .word "tee".toList],
      some file.toList, .plain⟩, ?_, rfl⟩
    refine Runs.run_append.mpr ⟨⟨[.word "echo".toList, .word text, .op '|', .word "sudo".toList, .word "tee".toList],
      none, .plain⟩, ?_, ShellWords.run_quote file none⟩
    refine Runs.run_append.mpr ⟨⟨[.word "echo".toList], some text, .plain⟩, ?_, rfl⟩
    exact Runs.run_append.mpr ⟨_, rfl, htext⟩
  rw [ShellWords.tokens_of_run hrun, Option.bind_some]
  show (if _ then _ else _) = _
  rw [if_pos ⟨rfl, rfl, rfl, h⟩]

/-! ## The start of capture -/

/-- How often the helper looks at most. -/
def rounds (doc : Document) : Nat :=
  if -2 ^ 63 ≤ waitLinkTimeout doc ∧ waitLinkTimeout doc < 2 ^ 63 then (waitLinkTimeout doc).toNat else 0

/-- The text of the drop-in: the installer's, or with the newline that `echo` adds the
wizard's. -/
def Installed (doc : Document) (text : List Char) : Prop :=
  text = content (waitLinkTimeout doc) ∨ text = content (waitLinkTimeout doc) ++ ['\n']

theorem Installed.exec {doc : Document} {text : List Char} (h : Installed doc text) (iface : List Char) :
    execStartPre iface text = [[helper, iface, (toString (waitLinkTimeout doc)).toList]] := by
  rcases h with rfl | rfl
  · simpa using execStartPre_content iface (waitLinkTimeout doc) [] (List.forall_mem_nil _)
  · exact execStartPre_content iface (waitLinkTimeout doc) [[]] (by simp)

/-- The two that write the drop-in. -/
inductive Writer where
  | wizard
  | installer

/-- The helper's file in the tree, as `Path(__file__).parents[2]` and `REPO_ROOT` have it. -/
def Writer.source : Writer → String
  | .wizard => "bin/seer-wait-link.sh"
  | .installer => "Automation/bin/seer-wait-link.sh"

/-- A run of one of the two: the files of its tree, whether `sudo install` goes through, and
what it finds in `seer.yml`. That `sudo tee` goes through is taken for granted. -/
structure Setup where
  writer : Writer
  tree : String → Bool
  copies : Bool
  doc : Document

/-- Whether `/usr/local/bin/seer-wait-link.sh` is there, and the drop-in. -/
structure Files where
  helper : Bool := false
  drop : Option (List Char) := none

/-- The tree has the helper where the writer looks for it. -/
def Setup.found (r : Setup) : Bool := r.tree r.writer.source

/-- `install_wait_helper`, and the section of `install.sh`. -/
def Files.setUp (s : Files) (r : Setup) : Files :=
  match r.writer with
  | .wizard =>
    { helper := s.helper || (r.found && r.copies)
      drop :=
        match (ShellWords.tokens (teeCommand (content (waitLinkTimeout r.doc)) dropFile)).bind teed with
        | some (file, text) => if file = dropFile.toList then some text else s.drop
        | none => s.drop }
  | .installer =>
    if r.found then { helper := s.helper || r.copies, drop := some (content (waitLinkTimeout r.doc)) } else s

/-- What a start of the unit meets. -/
structure Host where
  looks : Nat → Look
  /-- `WAIT_LINK_TIMEOUT` of the unit. -/
  env : List Char := []
  /-- When the round `n` begins, in seconds since systemd started the helper. -/
  clock : Nat → ℚ
  /-- `TimeoutStartSec`, which the unit leaves at systemd's default. -/
  limit : ℚ := 90
  -- a round that does not end the helper sleeps for a second
  clock_step : ∀ n, clock n + 1 ≤ clock (n + 1)

/-- A command of `ExecStartPre`. It fails when there is no such file, by its status, or by
taking too long. -/
def Host.run (h : Host) (files : Files) : List (List Char) → Option Outcome
  | [] => none
  | path :: args =>
    if path = helper ∧ files.helper = true then
      let r := waitLink args h.env h.looks
      if r.status = 0 ∧ h.clock r.slept < h.limit then some r else none
    else
      none

/-- Whether the run writes the drop-in. -/
def Setup.writes (r : Setup) : Bool :=
  match r.writer with
  | .wizard => true
  | .installer => r.found

/-- Whether it brings the helper. -/
def Setup.brings (r : Setup) : Bool := r.found && r.copies

/-- The document that the drop-in is from. -/
def lastWrite (runs : List Setup) : Option Document := ((runs.filter Setup.writes).getLast?).map (·.doc)

/-- What the runs so far have left. -/
structure Left (runs : List Setup) (files : Files) : Prop where
  helper : files.helper = runs.any Setup.brings
  never : lastWrite runs = none → files.drop = none
  drop : ∀ doc, lastWrite runs = some doc → ∃ text, files.drop = some text ∧ Installed doc text

section
variable {runs : List Setup} {files : Files} {h : Host}

theorem lastWrite_concat (runs : List Setup) (r : Setup) :
    lastWrite (runs ++ [r]) = if r.writes then some r.doc else lastWrite runs := by
  cases hwrites : r.writes <;> simp [lastWrite, List.filter_append, hwrites]

theorem backslash_not_mem_content (timeout : Int) : '\\' ∉ content timeout := by
  intro hmem
  obtain ⟨l, hl, hc⟩ := List.mem_flatMap.mp hmem
  rcases List.mem_append.mp hc with hc | hc
  · exact not_mem_contentLines _ (by decide +kernel) (by decide) rfl l hl hc
  · exact absurd hc (by decide)

theorem setUp_wizard (s : Files) (r : Setup) (hr : r.writer = .wizard) : s.setUp r =
    { helper := s.helper || r.brings, drop := some (content (waitLinkTimeout r.doc) ++ ['\n']) } := by
  rw [Files.setUp, hr]
  simp only [teed_teeCommand _ _ (backslash_not_mem_content _), if_true]
  rfl

theorem setUp_installer (s : Files) (r : Setup) (hr : r.writer = .installer) : s.setUp r =
    if r.found then { helper := s.helper || r.brings, drop := some (content (waitLinkTimeout r.doc)) } else s := by
  rw [Files.setUp, hr]
  cases hfound : r.found <;> simp [Setup.brings, hfound]

/-- A run that writes the drop-in writes it from what it finds. -/
theorem Left.write (hleft : Left runs files) {r : Setup} (hwrites : r.writes = true) {text : List Char}
    (htext : Installed r.doc text) :
    Left (runs ++ [r]) { helper := files.helper || r.brings, drop := some text } := by
  refine ⟨?_, ?_, ?_⟩
  · simp [hleft.helper]
  · rw [lastWrite_concat, if_pos hwrites]
    intro hnone
    cases hnone
  · rw [lastWrite_concat, if_pos hwrites]
    intro doc hdoc
    cases hdoc
    exact ⟨text, rfl, htext⟩

theorem Left.setUp (hleft : Left runs files) (r : Setup) : Left (runs ++ [r]) (files.setUp r) := by
  cases hr : r.writer with
  | wizard =>
    rw [setUp_wizard files r hr]
    exact hleft.write (by rw [Setup.writes, hr]) (.inr rfl)
  | installer =>
    rw [setUp_installer files r hr]
    have hwrites : r.writes = r.found := by rw [Setup.writes, hr]
    cases hfound : r.found with
    | true => exact hleft.write (hwrites.trans hfound) (.inl rfl)
    | false =>
      have hlast : lastWrite (runs ++ [r]) = lastWrite runs := by
        rw [lastWrite_concat, hwrites, hfound]
        rfl
      refine ⟨?_, hlast ▸ hleft.never, hlast ▸ hleft.drop⟩
      simp [hleft.helper, Setup.brings, hfound]

end

/-- This repository, where the helper is with the installer's other scripts. -/
def benchTree (path : String) : Bool := path = "Automation/bin/seer-wait-link.sh"

/-- Half a minute, written by hand as a text. -/
def benchRun (writer : Writer) : Setup := ⟨writer, benchTree, true, .ok (.dict [("wait_link_timeout", .str "30")])⟩

/-- A cable that is plugged in after three seconds. -/
def benchHost : Host where
  looks k := { carrier := if k < 3 then some "0" else some "1", lowerUp := false }
  clock k := k
  clock_step n := by simp

end SeerSensor.WaitLink
