/-
`seer_terminal.sh`: the theme it exports and the arguments it hands to the console.

The loop goes over the words as they stood at the start. `--theme` shifts the
parameters once and reads `$1`, which is the word after it only when it is the first
word: the `k`-th `--theme` reads the `k`-th word after the first one, wherever it
stands itself. The word it should have taken is not skipped either, and reaches the
console unless it looks like a theme option. `--theme=V` is read as it should be, but
an empty `V` counts as no option; and without any argument left over the console is
given one, the empty word, by `"${REST_ARGS[@]:-}"`.
-/
import Mathlib.Data.List.Induction
import SeerSensor.Lib.Shell

namespace SeerSensor.Terminal

open Shell Raise

/-- `THEME_ARG` and `REST_ARGS`. -/
structure Vars where
  themeArg : String := ""
  restArgs : List String := []
  deriving DecidableEq

/-- The `case "$a"` of the argument loop. -/
def parseArg (a : String) : Cmd Vars Unit :=
  match afterPrefix "--theme=" a with
  | some v => assign fun x => { x with themeArg := v }
  | none =>
    if a = "--theme" then do
      shift
      let v ← first
      assign fun x => { x with themeArg := v }
    else
      assign fun x => { x with restArgs := x.restArgs ++ [a] }

/-- What the script finds around it: its own directory and whether the console is in
it, `SEER_THEME` and `NO_COLORS` as they are set, and `tput colors` (with the
`|| echo 0`) as a number, when there is a `tput` and it prints one. -/
structure Host where
  scriptDir : String
  consoleFound : Bool
  seerTheme : Option String
  tputColors : Option (Option Int)
  noColors : Option String

namespace Host

/-- `CONSOLE_PY`. -/
def consolePy (h : Host) : String := h.scriptDir ++ "/seer_console.py"

/-- `[ "$COLORS" -ge 16 ]`, which fails on anything but a number. -/
def manyColors (h : Host) : Bool :=
  match h.tputColors with
  | none => false
  | some none => false
  | some (some colors) => 16 ≤ colors

/-- The theme without `--theme`. -/
def defaultTheme (h : Host) : String :=
  match h.seerTheme with
  | some t => if t = "" then (if h.manyColors then "evr" else "classic") else t
  | none => if h.manyColors then "evr" else "classic"

/-- `SEER_THEME`: what was given, or the default. -/
def chooseTheme (h : Host) (themeArg : String) : String :=
  if themeArg = "" then h.defaultTheme else themeArg

/-- `NO_COLORS`, as it is exported. -/
def exportNoColors (h : Host) : Option String :=
  if h.noColors = some "1" ∨ h.noColors = some "true" then some "1" else h.noColors

end Host

/-- `"${REST_ARGS[@]:-}"`: one empty word when there is none. -/
def expandRest (rest : List String) : List String := if rest = [] then [""] else rest

/-- The script ends, or is replaced by the console. -/
inductive Outcome where
  | stopped (e : Stop)
  | exec (command : List String) (seerTheme : String) (noColors : Option String)
  deriving DecidableEq

/-- The whole script. -/
def terminal (h : Host) (args : List String) : Outcome :=
  if h.consoleFound then
    match forParams parseArg ⟨args, {}⟩ with
    | .ok _ s => .exec ("python3" :: h.consolePy :: expandRest s.vars.restArgs) (h.chooseTheme s.vars.themeArg)
        h.exportNoColors
    | .error e _ => .stopped e
  else .stopped (.exit 2 ["ERROR: cannot find " ++ h.consolePy])

/-! ## What the caller means -/

/-- The words that are not an argument of the console. -/
def isThemeWord (a : String) : Bool := a == "--theme" || (afterPrefix "--theme=" a).isSome

/-- `--theme=v`, or `--theme v`. -/
inductive ThemeOption where
  | joined (v : String)
  | spaced (v : String)

namespace ThemeOption

def value : ThemeOption → String
  | joined v => v
  | spaced v => v

def words : ThemeOption → List String
  | joined v => ["--theme=" ++ v]
  | spaced v => ["--theme", v]

end ThemeOption

/-- One part of a command line. -/
inductive Item where
  | arg (a : String) (plain : isThemeWord a = false)
  | theme (o : ThemeOption)

namespace Item

def words : Item → List String
  | arg a _ => [a]
  | theme o => o.words

def arg? : Item → Option String
  | arg a _ => some a
  | theme _ => none

def theme? : Item → Option ThemeOption
  | arg _ _ => none
  | theme o => some o

end Item

/-- The words of a command line, its arguments for the console, and its last theme option. -/
def words (cl : List Item) : List String := cl.flatMap Item.words

/-- What is meant for the console. -/
def plainArgs (cl : List Item) : List String := cl.filterMap Item.arg?

/-- The option that is meant to count. -/
def lastTheme (cl : List Item) : Option ThemeOption := (cl.filterMap Item.theme?).getLast?

/-- The console is started with the arguments meant for it and, when there is a theme
option, with the theme of the last one. -/
def ParsesRight (h : Host) (cl : List Item) : Prop :=
  ∃ theme noColors, terminal h (words cl) = .exec ("python3" :: h.consolePy :: plainArgs cl) theme noColors ∧
    ∀ o, lastTheme cl = some o → theme = o.value

/-! ## Words -/

section
variable {a v : String}

theorem isThemeWord_eq_true : isThemeWord a = true ↔ a = "--theme" ∨ ∃ v, a = "--theme=" ++ v := by
  simp only [isThemeWord, Bool.or_eq_true, beq_iff_eq, Option.isSome_iff_exists, afterPrefix_eq_some]

@[simp] theorem isThemeWord_theme : isThemeWord "--theme" = true := isThemeWord_eq_true.mpr (.inl rfl)

@[simp] theorem isThemeWord_joined : isThemeWord ("--theme=" ++ v) = true :=
  isThemeWord_eq_true.mpr (.inr ⟨v, rfl⟩)

@[simp] theorem afterPrefix_joined : afterPrefix "--theme=" ("--theme=" ++ v) = some v :=
  afterPrefix_eq_some.mpr rfl

@[simp] theorem afterPrefix_theme : afterPrefix "--theme=" "--theme" = none := by decide

theorem joined_ne_theme : "--theme=" ++ v ≠ "--theme" := by
  intro h
  have := congrArg (afterPrefix "--theme=") h
  simp at this

theorem eq_empty_of_joined (h : "--theme=" ++ v = "--theme=") : v = "" := by
  have := congrArg (afterPrefix "--theme=") h
  rw [afterPrefix_joined, show afterPrefix "--theme=" "--theme=" = some "" by decide, Option.some.injEq] at this
  exact this

theorem ne_joined : v ≠ "--theme=" ++ v := by
  intro h
  have := congrArg String.length h
  rw [String.length_append, show "--theme=".length = 8 by decide] at this
  omega

theorem plain_ne_theme (h : isThemeWord a = false) : a ≠ "--theme" := by
  rintro rfl
  simp at h

theorem afterPrefix_plain (h : isThemeWord a = false) : afterPrefix "--theme=" a = none := by
  simp only [isThemeWord, Bool.or_eq_false_iff, Option.isSome_eq_false_iff, Option.isNone_iff_eq_none] at h
  exact h.2

theorem word_cases (a : String) : (∃ v, a = "--theme=" ++ v) ∨ a = "--theme" ∨ isThemeWord a = false := by
  cases h : isThemeWord a with
  | false => exact .inr (.inr rfl)
  | true =>
    rcases isThemeWord_eq_true.mp h with h | h
    · exact .inr (.inl h)
    · exact .inl h

end

/-! ## The loop -/

section
variable {s : Script Vars} {a v : String} {rest : List String}

theorem parseArg_joined : parseArg ("--theme=" ++ v) s = .ok () ⟨s.params, { s.vars with themeArg := v }⟩ := by
  simp [parseArg]

theorem parseArg_plain (h : isThemeWord a = false) :
    parseArg a s = .ok () ⟨s.params, { s.vars with restArgs := s.vars.restArgs ++ [a] }⟩ := by
  simp [parseArg, afterPrefix_plain h, plain_ne_theme h]

theorem parseArg_theme (h : s.params = a :: v :: rest) :
    parseArg "--theme" s = .ok () ⟨v :: rest, { s.vars with themeArg := v }⟩ := by
  simp only [parseArg, afterPrefix_theme, if_true]
  rw [bind_of_ok (shift_cons h), bind_of_ok (first_cons rfl)]
  rfl

theorem parseArg_theme_unbound (h : s.params = [a]) :
    parseArg "--theme" s = .error (.exit 1 ["$1: unbound variable"]) ⟨[], s.vars⟩ := by
  simp only [parseArg, afterPrefix_theme, if_true]
  rw [bind_of_ok (shift_cons h), bind_of_error (first_nil rfl)]

end

/-- `THEME_ARG` after the words `done` of the words `ws`. -/
def themeRead (ws done : List String) : String :=
  match (done.filter isThemeWord).getLast? with
  | none => ""
  | some a =>
    match afterPrefix "--theme=" a with
    | some v => v
    | none => (ws[done.count "--theme"]?).getD ""

/-- The state of the script after the words `done` of the words `ws`. -/
structure Parsed (ws done : List String) (s : Script Vars) : Prop where
  params : s.params = ws.drop (done.count "--theme")
  theme : s.vars.themeArg = themeRead ws done
  rest : s.vars.restArgs = done.filter fun a => !isThemeWord a

section
variable {ws done rest : List String} {a v : String} {s : Script Vars}

theorem themeRead_joined : themeRead ws (done ++ ["--theme=" ++ v]) = v := by
  simp [themeRead, List.filter_append]

theorem themeRead_theme : themeRead ws (done ++ ["--theme"]) = (ws[done.count "--theme" + 1]?).getD "" := by
  simp [themeRead, List.filter_append]

theorem themeRead_plain (h : isThemeWord a = false) : themeRead ws (done ++ [a]) = themeRead ws done := by
  simp [themeRead, List.filter_append, h, plain_ne_theme h]

theorem Parsed.joined (h : Parsed ws done s) :
    Parsed ws (done ++ ["--theme=" ++ v]) ⟨s.params, { s.vars with themeArg := v }⟩ where
  params := by simp [h.params, joined_ne_theme]
  theme := themeRead_joined.symm
  rest := by simp [h.rest, List.filter_append]

theorem Parsed.plain (h : Parsed ws done s) (ha : isThemeWord a = false) :
    Parsed ws (done ++ [a]) ⟨s.params, { s.vars with restArgs := s.vars.restArgs ++ [a] }⟩ where
  params := by simp [h.params, plain_ne_theme ha]
  theme := by rw [themeRead_plain ha]; exact h.theme
  rest := by simp [h.rest, List.filter_append, ha]

theorem Parsed.theme_next (h : Parsed ws done s) (hs : s.params = a :: v :: rest) :
    Parsed ws (done ++ ["--theme"]) ⟨v :: rest, { s.vars with themeArg := v }⟩ := by
  have hdrop : ws.drop (done.count "--theme" + 1) = v :: rest := by
    rw [← List.drop_drop, ← h.params, hs]; rfl
  refine ⟨?_, ?_, ?_⟩
  · simp [hdrop]
  · have hv : ws[done.count "--theme" + 1]? = some v := by
      rw [← List.head?_drop, hdrop]; rfl
    rw [themeRead_theme, hv]; rfl
  · simp [h.rest, List.filter_append]

/-- A `--theme` finds nothing to read only if there was never another word. -/
theorem Parsed.all_theme (h : Parsed ws done s) (hws : ws = done ++ "--theme" :: rest)
    (hs : s.params = [a]) : ∀ b ∈ ws, b = "--theme" := by
  have hlen := congrArg List.length (h.params.symm.trans hs)
  have hle := List.count_le_length (a := "--theme") (l := done)
  simp only [hws, List.length_drop, List.length_append, List.length_cons, List.length_nil] at hlen
  have hrest : rest = [] := List.length_eq_zero_iff.mp (by omega)
  have hdone := List.count_eq_length.mp (show done.count "--theme" = done.length by omega)
  intro b hb
  rw [hws, hrest] at hb
  rcases List.mem_append.mp hb with hb | hb
  · exact (hdone b hb).symm
  · exact List.mem_singleton.mp hb

theorem parse_cases (ws : List String) :
    (∃ s, forParams parseArg ⟨ws, {}⟩ = .ok () s ∧ Parsed ws ws s) ∨
      ∃ e s, forParams parseArg ⟨ws, {}⟩ = .error e s ∧ ∀ b ∈ ws, b = "--theme" := by
  refine forParams_cases (Parsed ws) (fun _ => ∀ b ∈ ws, b = "--theme") ?_ ⟨rfl, rfl, rfl⟩
  intro done a rest t hws hI
  have hws : ws = done ++ a :: rest := hws
  rcases word_cases a with ⟨v, rfl⟩ | rfl | ha
  · exact .inl ⟨_, parseArg_joined, hI.joined⟩
  · -- At most one shift a word, so there is still a parameter to shift away.
    have hlt : done.count "--theme" < ws.length := by
      have := List.count_le_length (a := "--theme") (l := done)
      simp only [hws, List.length_append, List.length_cons]
      omega
    obtain ⟨x, xs, hx⟩ := List.exists_cons_of_ne_nil (fun hnil => by
      rw [hI.params, List.drop_eq_nil_iff] at hnil; omega : t.params ≠ [])
    cases xs with
    | nil => exact .inr ⟨_, _, parseArg_theme_unbound hx, hI.all_theme hws hx⟩
    | cons v xs => exact .inl ⟨_, parseArg_theme hx, hI.theme_next hx⟩
  · exact .inl ⟨_, parseArg_plain ha, hI.plain ha⟩

end

/-! ## The words of a command line -/

/-- The values given as words of their own all look like theme options. -/
def NoLeak (cl : List Item) : Prop := ∀ v, .theme (.spaced v) ∈ cl → isThemeWord v = true

/-- The last of the option's words, which the loop goes over last. -/
def ThemeOption.lastWord : ThemeOption → String
  | joined v => "--theme=" ++ v
  | spaced v => v

section
variable {cl : List Item} {a : String}

theorem words_cons (i : Item) (cl : List Item) : words (i :: cl) = i.words ++ words cl := List.flatMap_cons ..

theorem words_concat (cl : List Item) (i : Item) : words (cl ++ [i]) = words cl ++ i.words := by
  simp [words]

@[simp] theorem plainArgs_arg {ha : isThemeWord a = false} : plainArgs (.arg a ha :: cl) = a :: plainArgs cl := rfl

@[simp] theorem plainArgs_theme {o : ThemeOption} : plainArgs (.theme o :: cl) = plainArgs cl := rfl

/-- The words of a command line, perhaps with a `--theme` at the end that has no value. -/
def Covered (ws : List String) : Prop := ∃ cl, ws = words cl ∨ ws = words cl ++ ["--theme"]

theorem Covered.cons (i : Item) {ws : List String} (h : Covered ws) : Covered (i.words ++ ws) := by
  obtain ⟨cl, rfl | rfl⟩ := h
  · exact ⟨i :: cl, .inl (words_cons i cl).symm⟩
  · exact ⟨i :: cl, .inr (by rw [words_cons, List.append_assoc])⟩

theorem covered : ∀ ws : List String, Covered ws
  | [] => ⟨[], .inl rfl⟩
  | a :: ws => by
    rcases word_cases a with ⟨v, rfl⟩ | rfl | ha
    · exact (covered ws).cons (.theme (.joined v))
    · match ws with
      | [] => exact ⟨[], .inr rfl⟩
      | v :: ws => exact (covered ws).cons (.theme (.spaced v))
    · exact (covered ws).cons (.arg a ha)

theorem noLeak_cons {i : Item} :
    NoLeak (i :: cl) ↔ (∀ v, i = .theme (.spaced v) → isThemeWord v = true) ∧ NoLeak cl := by
  simp only [NoLeak, List.mem_cons]
  constructor
  · intro h
    exact ⟨fun v hv => h v (.inl hv.symm), fun v hv => h v (.inr hv)⟩
  · rintro ⟨hi, hcl⟩ v (hv | hv)
    · exact hi v hv.symm
    · exact hcl v hv

theorem mem_words_of_plain (h : a ∈ plainArgs cl) : a ∈ words cl ∧ isThemeWord a = false := by
  simp only [plainArgs, List.mem_filterMap] at h
  obtain ⟨i, hi, ha⟩ := h
  cases i with
  | arg b hb =>
    cases ha
    exact ⟨List.mem_flatMap.mpr ⟨_, hi, List.mem_singleton.mpr rfl⟩, hb⟩
  | theme o => cases ha

theorem length_plainArgs_le (cl : List Item) :
    (plainArgs cl).length ≤ ((words cl).filter fun a => !isThemeWord a).length := by
  induction cl with
  | nil => simp [plainArgs]
  | cons i cl ih =>
    rw [words_cons, List.filter_append, List.length_append]
    cases i with
    | arg a ha =>
      simp only [plainArgs_arg, Item.words, List.filter_singleton, ha, Bool.not_false, cond_true, List.length_cons,
        List.length_nil]
      omega
    | theme o =>
      rw [plainArgs_theme]
      omega

/-- The console gets nothing else exactly if no value leaks. -/
theorem filter_words_iff : ((words cl).filter fun a => !isThemeWord a) = plainArgs cl ↔ NoLeak cl := by
  induction cl with
  | nil => simp [words, plainArgs, NoLeak]
  | cons i cl ih =>
    rw [words_cons, List.filter_append, noLeak_cons, ← ih]
    cases i with
    | arg a ha => simp [Item.words, ha]
    | theme o =>
      cases o with
      | joined v => simp [Item.words, ThemeOption.words]
      | spaced v =>
        cases hv : isThemeWord v with
        | true => simp [Item.words, ThemeOption.words, hv]
        | false =>
          -- The value is one word too many.
          have hle := length_plainArgs_le cl
          constructor
          · intro h
            have := congrArg List.length h
            simp only [plainArgs_theme, List.length_append, Item.words, ThemeOption.words, List.filter_cons,
              isThemeWord_theme, hv, Bool.not_true, Bool.not_false, if_true, Bool.false_eq_true, if_false,
              List.filter_nil, List.length_cons, List.length_nil] at this
            omega
          · intro h
            have := h.1 v rfl
            rw [hv] at this
            cases this

theorem lastTheme_concat_arg {ha : isThemeWord a = false} : lastTheme (cl ++ [.arg a ha]) = lastTheme cl := by
  simp [lastTheme, Item.theme?]

theorem lastTheme_concat_theme {o : ThemeOption} : lastTheme (cl ++ [.theme o]) = some o := by
  simp [lastTheme, Item.theme?]

theorem theme_mem_of_last {o : ThemeOption} (ho : lastTheme cl = some o) : Item.theme o ∈ cl := by
  obtain ⟨i, hi, hv⟩ := List.mem_filterMap.mp (List.mem_of_getLast? ho)
  cases i with
  | arg a ha => cases hv
  | theme o => cases hv; exact hi

/-- The last theme word the loop sees is the last word of the last option. -/
theorem last_theme_word (h : NoLeak cl) :
    ((words cl).filter isThemeWord).getLast? = (lastTheme cl).map ThemeOption.lastWord := by
  induction cl using List.reverseRecOn with
  | nil => rfl
  | append_singleton cl i ih =>
    have hcl : NoLeak cl := fun v hv => h v (List.mem_append_left _ hv)
    rw [words_concat, List.filter_append]
    cases i with
    | arg a ha =>
      rw [lastTheme_concat_arg, ← ih hcl]
      simp [Item.words, ha]
    | theme o =>
      rw [lastTheme_concat_theme]
      cases o with
      | joined v => simp [Item.words, ThemeOption.words, ThemeOption.lastWord]
      | spaced v =>
        have hv : isThemeWord v = true := h v (List.mem_append_right _ (List.mem_singleton.mpr rfl))
        simp [Item.words, ThemeOption.words, ThemeOption.lastWord, hv]

end

/-! ## When the command line is read right -/

/-- The theme the loop leaves is the option's own. For a value that is a word of its
own this is a coincidence: the value is `--theme` and so is the word that is read, or
it is the theme that is set in the environment and the one that is read is empty. -/
def ThemeOption.Honoured (h : Host) (ws : List String) : ThemeOption → Prop
  | joined v => v ≠ ""
  | spaced v =>
    v = "--theme" ∧ (ws[ws.count "--theme"]? = some "--theme" ∨
      ws[ws.count "--theme"]? = some "" ∧ h.seerTheme = some "--theme") ∨
    v = "--theme=" ∧ h.seerTheme = some "--theme="

/-- There is a console and an argument for it, no value given as a word of its own
leaks, and the last theme option is honoured. -/
structure ReadsRight (h : Host) (cl : List Item) : Prop where
  found : h.consoleFound = true
  hasArg : plainArgs cl ≠ []
  noLeak : NoLeak cl
  last : ∀ o, lastTheme cl = some o → o.Honoured h (words cl)

section
variable {h : Host} {cl : List Item} {t x : String}

theorem defaultTheme_eq_iff (ht : t ∉ ["", "evr", "classic"]) : h.defaultTheme = t ↔ h.seerTheme = some t := by
  simp only [List.mem_cons, List.not_mem_nil, or_false, not_or] at ht
  obtain ⟨hne, hevr, hclassic⟩ := ht
  have hauto : (if h.manyColors then "evr" else "classic") ≠ t := by
    split
    · exact Ne.symm hevr
    · exact Ne.symm hclassic
  unfold Host.defaultTheme
  cases h.seerTheme with
  | none => simp [hauto]
  | some u =>
    by_cases hu : u = ""
    · subst hu
      simp [hauto, Ne.symm hne]
    · simp [hu]

theorem defaultTheme_ne_empty : h.defaultTheme ≠ "" := by
  unfold Host.defaultTheme
  cases h.seerTheme with
  | none => cases h.manyColors <;> decide
  | some u =>
    by_cases hu : u = ""
    · rw [hu]
      cases h.manyColors <;> decide
    · simp [hu]

theorem chooseTheme_eq_iff : h.chooseTheme x = t ↔ x ≠ "" ∧ x = t ∨ x = "" ∧ h.defaultTheme = t := by
  unfold Host.chooseTheme
  by_cases hx : x = "" <;> simp [hx]

theorem expandRest_eq_iff {rest args : List String} (hle : args.length ≤ rest.length) :
    expandRest rest = args ↔ args ≠ [] ∧ rest = args := by
  unfold expandRest
  by_cases hrest : rest = []
  · subst hrest
    have : args = [] := List.length_eq_zero_iff.mp (by simpa using hle)
    simp [this]
  · simp only [hrest, if_false]
    exact ⟨fun he => ⟨he ▸ hrest, he⟩, fun he => he.2⟩

/-- An argument of the console is a word that no `--theme` counts. -/
theorem count_theme_lt (harg : plainArgs cl ≠ []) : (words cl).count "--theme" < (words cl).length := by
  obtain ⟨a, ha⟩ := List.exists_mem_of_ne_nil _ harg
  obtain ⟨hmem, hplain⟩ := mem_words_of_plain ha
  refine Nat.lt_of_le_of_ne List.count_le_length fun heq => ?_
  exact plain_ne_theme hplain (List.count_eq_length.mp heq a hmem).symm

theorem honoured_iff (harg : plainArgs cl ≠ []) (hleak : NoLeak cl) {o : ThemeOption}
    (ho : lastTheme cl = some o) :
    h.chooseTheme (themeRead (words cl) (words cl)) = o.value ↔ o.Honoured h (words cl) := by
  have hlast := last_theme_word hleak
  rw [ho, Option.map_some] at hlast
  simp only [themeRead, hlast]
  cases o with
  | joined v =>
    simp only [ThemeOption.lastWord, afterPrefix_joined, ThemeOption.value, ThemeOption.Honoured, chooseTheme_eq_iff]
    constructor
    · rintro (hv | ⟨rfl, hv⟩)
      · exact hv.1
      · exact absurd hv defaultTheme_ne_empty
    · intro hv
      exact .inl ⟨hv, trivial⟩
  | spaced v =>
    rcases isThemeWord_eq_true.mp (hleak v (theme_mem_of_last ho)) with rfl | ⟨w, rfl⟩
    · -- The loop ends with a `--theme`, which reads the word at its own number.
      obtain ⟨x, hx⟩ : ∃ x, (words cl)[(words cl).count "--theme"]? = some x :=
        ⟨_, List.getElem?_eq_getElem (count_theme_lt harg)⟩
      simp only [ThemeOption.lastWord, afterPrefix_theme, ThemeOption.value, ThemeOption.Honoured, chooseTheme_eq_iff, hx,
        Option.getD_some, Option.some.injEq, defaultTheme_eq_iff (show "--theme" ∉ ["", "evr", "classic"] by decide)]
      constructor
      · rintro (hc | hc)
        · exact .inl ⟨trivial, .inl hc.2⟩
        · exact .inl ⟨trivial, .inr hc⟩
      · rintro (⟨_, rfl | hc⟩ | ⟨hc, _⟩)
        · exact .inl ⟨by decide, rfl⟩
        · exact .inr hc
        · exact absurd hc (by decide)
    · -- It ends with `--theme=w`, which is taken for an option with the value `w`.
      simp only [ThemeOption.lastWord, afterPrefix_joined, ThemeOption.value, ThemeOption.Honoured, chooseTheme_eq_iff]
      constructor
      · rintro (⟨_, hc⟩ | ⟨rfl, hc⟩)
        · exact absurd hc ne_joined
        · exact .inr ⟨rfl, (defaultTheme_eq_iff (by decide)).mp hc⟩
      · rintro (⟨hc, _⟩ | ⟨hc, henv⟩)
        · exact absurd hc joined_ne_theme
        · rw [eq_empty_of_joined hc]
          exact .inr ⟨rfl, (defaultTheme_eq_iff (by decide)).mpr henv⟩

theorem terminal_of_parsed {args : List String} {s : Script Vars} (hfound : h.consoleFound = true)
    (hs : forParams parseArg ⟨args, {}⟩ = .ok () s) (hp : Parsed args args s) :
    terminal h args = .exec ("python3" :: h.consolePy :: expandRest (args.filter fun a => !isThemeWord a))
      (h.chooseTheme (themeRead args args)) h.exportNoColors := by
  rw [terminal, if_pos hfound, hs, ← hp.rest, ← hp.theme]

/-- **When the terminal script reads its arguments right.** For every host and every
command line: exactly if there is a console and an argument for it, every value given
as a word of its own looks like a theme option, and the last option is honoured. -/
theorem terminal_parses_right_iff (h : Host) (cl : List Item) : ParsesRight h cl ↔ ReadsRight h cl := by
  cases hfound : h.consoleFound with
  | false =>
    constructor
    · rintro ⟨theme, noColors, heq, _⟩
      simp [terminal, hfound] at heq
    · intro hr
      exact absurd (hfound.symm.trans hr.found) (by decide)
  | true =>
    rcases parse_cases (words cl) with ⟨s, hs, hp⟩ | ⟨e, s, hs, hall⟩
    · have hterm := terminal_of_parsed hfound hs hp
      have hargs := expandRest_eq_iff (length_plainArgs_le cl)
      constructor
      · rintro ⟨theme, noColors, heq, hlast⟩
        simp only [hterm, Outcome.exec.injEq, List.cons.injEq, true_and, hargs, filter_words_iff] at heq
        obtain ⟨⟨harg, hleak⟩, rfl, _⟩ := heq
        exact ⟨hfound, harg, hleak, fun o ho => (honoured_iff harg hleak ho).mp (hlast o ho)⟩
      · intro hr
        have hrest := hargs.mpr ⟨hr.hasArg, filter_words_iff.mpr hr.noLeak⟩
        refine ⟨_, _, by rw [hterm, hrest], fun o ho => ?_⟩
        exact (honoured_iff hr.hasArg hr.noLeak ho).mpr (hr.last o ho)
    · -- All words are `--theme`: the script stops, and there is no argument.
      constructor
      · rintro ⟨theme, noColors, heq, _⟩
        simp [terminal, hfound, hs] at heq
      · intro hr
        obtain ⟨a, ha⟩ := List.exists_mem_of_ne_nil _ hr.hasArg
        obtain ⟨hmem, hplain⟩ := mem_words_of_plain ha
        exact absurd (hall a hmem) (plain_ne_theme hplain)

/-- With values that could not be taken for options, a value is never given as a word
of its own. -/
theorem readsRight_iff_joined (hv : ∀ v, .theme (.spaced v) ∈ cl → isThemeWord v = false) :
    ReadsRight h cl ↔ h.consoleFound = true ∧ plainArgs cl ≠ [] ∧ (∀ v, .theme (.spaced v) ∉ cl) ∧
      lastTheme cl ≠ some (.joined "") := by
  constructor
  · intro hr
    refine ⟨hr.found, hr.hasArg, fun v hmem => ?_, fun hlast => hr.last _ hlast rfl⟩
    exact absurd (hr.noLeak v hmem) (by simp [hv v hmem])
  · rintro ⟨hfound, harg, hnone, hlast⟩
    refine ⟨hfound, harg, fun v hmem => absurd hmem (hnone v), fun o ho => ?_⟩
    cases o with
    | joined v =>
      intro hempty
      exact hlast (hempty ▸ ho)
    | spaced v => exact absurd (theme_mem_of_last ho) (hnone v)

end

/-- A terminal with 256 colours and nothing set. -/
def benchHost : Host where
  scriptDir := "/opt/seer/bin"
  consoleFound := true
  seerTheme := none
  tputColors := some (some 256)
  noColors := none

/-- `seer_terminal.sh --once --theme classic`: the theme is `--theme`, and `classic` goes
to the console. -/
theorem terminal_misreads_theme :
    terminal benchHost ["--once", "--theme", "classic"] =
        .exec ["python3", "/opt/seer/bin/seer_console.py", "--once", "classic"] "--theme" none ∧
      ¬ ParsesRight benchHost [.arg "--once" (by decide), .theme (.spaced "classic")] := by
  have hrun : terminal benchHost ["--once", "--theme", "classic"] =
      .exec ["python3", "/opt/seer/bin/seer_console.py", "--once", "classic"] "--theme" none := by
    decide +kernel
  refine ⟨hrun, fun hr => ?_⟩
  obtain ⟨theme, noColors, heq, _⟩ := hr
  have hcommand : "/opt/seer/bin/seer_console.py" :: ["--once", "classic"] =
      benchHost.consolePy :: plainArgs [.arg "--once" (by decide), .theme (.spaced "classic")] :=
    (List.cons.inj (Outcome.exec.inj (hrun.symm.trans heq)).1).2
  exact absurd (List.cons.inj hcommand).2 (by decide)

example : terminal benchHost ["--once", "--theme=classic"] =
    .exec ["python3", "/opt/seer/bin/seer_console.py", "--once"] "classic" none := by
  decide +kernel

end SeerSensor.Terminal
