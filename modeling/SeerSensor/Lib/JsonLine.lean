/-
Flat JSON objects on one line, as Python's `json.dumps` writes them: members
whose values are `null`, natural numbers and texts of any characters, those
outside printable ASCII escaped.

The reader goes over the text character by character (`step`), so a text in two
parts is read in two runs. That is what the facts about torn texts need: no
proper part of an object is one (`load_take`), and once a text has begun, no
object put behind it can be read any more, nor any part of one
(`not_done_glued`), because its brace is not expected there, or is swallowed by a text
that its first quote then ends.
-/
import Mathlib.Data.List.Basic
import SeerSensor.Lib.PyStr

namespace JsonLine

/-- The values of one line. -/
inductive Value where
  | null
  | nat (n : Nat)
  | str (s : String)
  deriving DecidableEq

abbrev Members := List (String × Value)

/-! ## Writing -/

/-- A digit below 16. -/
def hexDigit (n : Nat) : Char := Char.ofNat (if n < 10 then '0'.toNat + n else 'a'.toNat + (n - 10))

/-- A backslash, `u` and four digits. -/
def unicode (n : Nat) : List Char :=
  ['\\', 'u', hexDigit (n / 4096 % 16), hexDigit (n / 256 % 16), hexDigit (n / 16 % 16), hexDigit (n % 16)]

/-- As `ensure_ascii` has it, with two halves for a character beyond the basic plane. -/
def escapeChar (c : Char) : List Char :=
  if c = '"' then ['\\', '"']
  else if c = '\\' then ['\\', '\\']
  else if c = '\n' then ['\\', 'n']
  else if c = '\r' then ['\\', 'r']
  else if c = '\t' then ['\\', 't']
  else if c = '\x08' then ['\\', 'b']
  else if c = '\x0c' then ['\\', 'f']
  else if 0x20 ≤ c.toNat ∧ c.toNat ≤ 0x7e then [c]
  else if c.toNat < 0x10000 then unicode c.toNat
  else unicode (0xd800 + (c.toNat - 0x10000) / 0x400) ++ unicode (0xdc00 + (c.toNat - 0x10000) % 0x400)

/-- A text in its quotes, with what has to be escaped. -/
def quoted (s : String) : List Char := '"' :: (s.toList.flatMap escapeChar ++ ['"'])

/-- A value as it is written. -/
def Value.dump : Value → List Char
  | .null => ['n', 'u', 'l', 'l']
  | .nat n => (toString n).toList
  | .str s => quoted s

/-- A key and its value. -/
def dumpMember (m : String × Value) : List Char := quoted m.1 ++ (':' :: ' ' :: m.2.dump)

/-- What follows the first member. -/
def dumpRest : Members → List Char
  | [] => ['}']
  | m :: ms => ',' :: ' ' :: (dumpMember m ++ dumpRest ms)

/-- `json.dumps(members)`. -/
def dump : Members → List Char
  | [] => ['{', '}']
  | m :: ms => '{' :: (dumpMember m ++ dumpRest ms)

/-! ## Reading -/

/-- White space of JSON. -/
def isWs (c : Char) : Bool := decide (c ∈ [' ', '\t', '\n', '\r'])

/-- The value of a digit, in either case. -/
def hexVal (c : Char) : Option Nat :=
  if c.isDigit then some (c.toNat - '0'.toNat)
  else if 'a' ≤ c ∧ c ≤ 'f' then some (c.toNat - 'a'.toNat + 10)
  else if 'A' ≤ c ∧ c ≤ 'F' then some (c.toNat - 'A'.toNat + 10)
  else none

/-- What a character means behind a backslash. -/
def unescape : Char → Option Char
  | '"' => some '"'
  | '\\' => some '\\'
  | '/' => some '/'
  | 'b' => some '\x08'
  | 'f' => some '\x0c'
  | 'n' => some '\n'
  | 'r' => some '\r'
  | 't' => some '\t'
  | _ => none

/-- Where the reader is in a text. -/
inductive Str where
  | text
  /-- Behind a backslash, and perhaps the first half of a character before it. -/
  | esc (high : Option Nat)
  /-- `k + 1` digits to come. -/
  | uni (high : Option Nat) (k acc : Nat)
  /-- Behind the first half of a character. -/
  | half (high : Nat)
  deriving DecidableEq

/-- Where the reader is in the object. -/
inductive At where
  | start
  | opened
  | key (s : Str) (buf : List Char)
  | colon (key : String)
  | value (key : String)
  | str (key : String) (s : Str) (buf : List Char)
  /-- `k` letters into `null`. -/
  | lit (key : String) (k : Nat)
  | num (key : String) (n : Nat)
  | next
  | comma
  | done
  deriving DecidableEq

/-- Where the reader is, and what it has read. -/
structure State where
  pos : At
  members : Members := []
  deriving DecidableEq

/-- The code of a character, or of half of one, is complete. A half without the
other is no character here. -/
def unicodeEnd (high : Option Nat) (n : Nat) : Option (Str × List Char) :=
  match high with
  | none =>
    if 0xd800 ≤ n ∧ n ≤ 0xdbff then some (.half n, [])
    else if 0xdc00 ≤ n ∧ n ≤ 0xdfff then none
    else some (.text, [Char.ofNat n])
  | some h =>
    if 0xdc00 ≤ n ∧ n ≤ 0xdfff then
      some (.text, [Char.ofNat (0x10000 + (h - 0xd800) * 0x400 + (n - 0xdc00))])
    else none

/-- One character of a text that goes on, and what it adds to it. -/
def strStep : Str → Char → Option (Str × List Char)
  | .text, c =>
    if c = '\\' then some (.esc none, [])
    else if c.toNat < 0x20 then none
    else some (.text, [c])
  | .esc high, 'u' => some (.uni high 3 0, [])
  | .esc none, c => (unescape c).map fun d => (.text, [d])
  | .esc (some _), _ => none
  | .uni high k acc, c =>
    (hexVal c).bind fun d =>
      match k with
      | 0 => unicodeEnd high (acc * 16 + d)
      | k + 1 => some (.uni high k (acc * 16 + d), [])
  | .half high, c => if c = '\\' then some (.esc (some high), []) else none

/-- One character of a text, the quote that ends it included. -/
def inStr (more : Str → List Char → State) (close : List Char → State) (s : Str) (buf : List Char)
    (c : Char) : Option State :=
  if s = .text ∧ c = '"' then some (close buf)
  else (strStep s c).map fun r => more r.1 (buf ++ r.2)

/-- Behind a value. -/
def afterValue (ms : Members) (c : Char) : Option State :=
  if isWs c then some ⟨.next, ms⟩
  else if c = ',' then some ⟨.comma, ms⟩
  else if c = '}' then some ⟨.done, ms⟩
  else none

/-- Before a key, or white space before it. -/
def beforeKey (pos : At) (ms : Members) (c : Char) : Option State :=
  if isWs c then some ⟨pos, ms⟩
  else if c = '"' then some ⟨.key .text [], ms⟩
  else none

/-- One character. -/
def step (s : State) (c : Char) : Option State :=
  match s.pos with
  | .start => if isWs c then some s else if c = '{' then some ⟨.opened, s.members⟩ else none
  | .opened => if c = '}' then some ⟨.done, s.members⟩ else beforeKey .opened s.members c
  | .key str buf =>
    inStr (fun str buf => ⟨.key str buf, s.members⟩) (fun buf => ⟨.colon (String.ofList buf), s.members⟩)
      str buf c
  | .colon key =>
    if isWs c then some s else if c = ':' then some ⟨.value key, s.members⟩ else none
  | .value key =>
    if isWs c then some s
    else if c = '"' then some ⟨.str key .text [], s.members⟩
    else if c = 'n' then some ⟨.lit key 1, s.members⟩
    else if c.isDigit then some ⟨.num key (c.toNat - '0'.toNat), s.members⟩
    else none
  | .str key str buf =>
    inStr (fun str buf => ⟨.str key str buf, s.members⟩)
      (fun buf => ⟨.next, s.members ++ [(key, .str (String.ofList buf))]⟩) str buf c
  | .lit key k =>
    if ['n', 'u', 'l', 'l'][k]? = some c then
      some (if k = 3 then ⟨.next, s.members ++ [(key, .null)]⟩ else ⟨.lit key (k + 1), s.members⟩)
    else none
  | .num key n =>
    if c.isDigit then
      -- nothing follows a leading zero
      if n = 0 then none else some ⟨.num key (n * 10 + (c.toNat - '0'.toNat)), s.members⟩
    else afterValue (s.members ++ [(key, .nat n)]) c
  | .next => afterValue s.members c
  | .comma => beforeKey .comma s.members c
  | .done => if isWs c then some s else none

/-- A text, character by character. -/
def run (s : State) (text : List Char) : Option State := text.foldlM step s

/-- `json.loads` of a text; `none` is a `JSONDecodeError`. -/
def load (text : List Char) : Option Members :=
  (run ⟨.start, []⟩ text).bind fun s => if s.pos = .done then some s.members else none

theorem run_nil (s : State) : run s [] = some s := rfl

theorem run_cons (s : State) (c : Char) (cs : List Char) :
    run s (c :: cs) = (step s c).bind fun s => run s cs :=
  rfl

theorem run_append (s : State) (xs ys : List Char) :
    run s (xs ++ ys) = (run s xs).bind fun s => run s ys :=
  List.foldlM_append

/-! ## The round trip -/

theorem hexVal_hexDigit : ∀ d < 16, hexVal (hexDigit d) = some d := by decide

section
variable (more : Str → List Char → State) (close : List Char → State)

theorem run_digits (hstep : ∀ str buf c, step (more str buf) c = inStr more close str buf c)
    (high : Option Nat) {n : Nat} (hn : n < 0x10000) (buf : List Char) :
    run (more (.uni high 3 0) buf) [hexDigit (n / 4096 % 16), hexDigit (n / 256 % 16),
      hexDigit (n / 16 % 16), hexDigit (n % 16)] =
      (unicodeEnd high n).map fun r => more r.1 (buf ++ r.2) := by
  have hdigit : ∀ m, hexVal (hexDigit (m % 16)) = some (m % 16) :=
    fun m => hexVal_hexDigit _ (Nat.mod_lt m (by decide))
  have hvalue : (((0 * 16 + n / 4096 % 16) * 16 + n / 256 % 16) * 16 + n / 16 % 16) * 16 + n % 16 = n := by
    omega
  simp only [run_cons, hstep, inStr, reduceCtorEq, false_and, if_false, strStep, hdigit, Option.bind_some,
    Option.map_some, List.append_nil, hvalue, run_nil]
  cases unicodeEnd high n <;> rfl

theorem run_unicode (hstep : ∀ str buf c, step (more str buf) c = inStr more close str buf c)
    {n : Nat} (hn : n < 0x10000) (buf : List Char) :
    run (more .text buf) (unicode n) = (unicodeEnd none n).map fun r => more r.1 (buf ++ r.2) := by
  rw [← run_digits more close hstep none hn buf]
  simp [unicode, run_cons, hstep, inStr, strStep]

theorem run_unicode_half (hstep : ∀ str buf c, step (more str buf) c = inStr more close str buf c)
    (high : Nat) {n : Nat} (hn : n < 0x10000) (buf : List Char) :
    run (more (.half high) buf) (unicode n) =
      (unicodeEnd (some high) n).map fun r => more r.1 (buf ++ r.2) := by
  rw [← run_digits more close hstep (some high) hn buf]
  simp [unicode, run_cons, hstep, inStr, strStep]

theorem run_escapeChar (hstep : ∀ str buf c, step (more str buf) c = inStr more close str buf c)
    (c : Char) (buf : List Char) :
    run (more .text buf) (escapeChar c) = some (more .text (buf ++ [c])) := by
  unfold escapeChar
  -- the seven that have a letter
  split
  · next h => subst h; simp [run_cons, run_nil, hstep, inStr, strStep, unescape]
  split
  · next h => subst h; simp [run_cons, run_nil, hstep, inStr, strStep, unescape]
  split
  · next h => subst h; simp [run_cons, run_nil, hstep, inStr, strStep, unescape]
  split
  · next h => subst h; simp [run_cons, run_nil, hstep, inStr, strStep, unescape]
  split
  · next h => subst h; simp [run_cons, run_nil, hstep, inStr, strStep, unescape]
  split
  · next h => subst h; simp [run_cons, run_nil, hstep, inStr, strStep, unescape]
  split
  · next h => subst h; simp [run_cons, run_nil, hstep, inStr, strStep, unescape]
  next hquote hback _ _ _ _ _ =>
  split
  · next hplain =>
    have hlow : ¬ c.toNat < 0x20 := by omega
    simp [run_cons, run_nil, hstep, inStr, strStep, hquote, hback, hlow]
  have hvalid := c.valid
  split
  · next hbasic =>
    rw [run_unicode more close hstep hbasic]
    have hnot : ¬ (0xd800 ≤ c.toNat ∧ c.toNat ≤ 0xdbff) ∧ ¬ (0xdc00 ≤ c.toNat ∧ c.toNat ≤ 0xdfff) := by
      simp only [UInt32.isValidChar, Nat.isValidChar] at hvalid
      simp only [Char.toNat]
      omega
    simp [unicodeEnd, hnot.1, hnot.2]
  · next hbeyond =>
    have hmax : c.toNat < 0x110000 := by
      simp only [UInt32.isValidChar, Nat.isValidChar] at hvalid
      simp only [Char.toNat]
      omega
    have hhigh : 0xd800 + (c.toNat - 0x10000) / 0x400 < 0x10000 := by omega
    have hlow : 0xdc00 + (c.toNat - 0x10000) % 0x400 < 0x10000 := by omega
    have hfirst : unicodeEnd none (0xd800 + (c.toNat - 0x10000) / 0x400) =
        some (.half (0xd800 + (c.toNat - 0x10000) / 0x400), []) := by
      unfold unicodeEnd
      exact if_pos (by omega)
    have hsecond : unicodeEnd (some (0xd800 + (c.toNat - 0x10000) / 0x400))
        (0xdc00 + (c.toNat - 0x10000) % 0x400) = some (.text, [c]) := by
      have hvalue : 0x10000 + (0xd800 + (c.toNat - 0x10000) / 0x400 - 0xd800) * 0x400 +
          (0xdc00 + (c.toNat - 0x10000) % 0x400 - 0xdc00) = c.toNat := by omega
      simp only [unicodeEnd, hvalue, Char.ofNat_toNat]
      exact if_pos (by omega)
    rw [run_append, run_unicode more close hstep hhigh, hfirst]
    simp only [Option.map_some, Option.bind_some, List.append_nil]
    rw [run_unicode_half more close hstep _ hlow, hsecond]
    rfl

theorem run_text (hstep : ∀ str buf c, step (more str buf) c = inStr more close str buf c)
    (s buf : List Char) :
    run (more .text buf) (s.flatMap escapeChar ++ ['"']) = some (close (buf ++ s)) := by
  induction s generalizing buf with
  | nil => simp [run_cons, run_nil, hstep, inStr]
  | cons c s ih =>
    rw [List.flatMap_cons, List.append_assoc, run_append, run_escapeChar more close hstep c buf,
      Option.bind_some, ih]
    simp

end

section
variable {ms : Members} {key : String} {v : Value} {c : Char}

theorem run_key (key : String) (ms : Members) :
    run ⟨.key .text [], ms⟩ (key.toList.flatMap escapeChar ++ ['"']) = some ⟨.colon key, ms⟩ := by
  have h := run_text (fun str buf => ⟨.key str buf, ms⟩) (fun buf => ⟨.colon (String.ofList buf), ms⟩)
    (fun _ _ _ => rfl) key.toList []
  simpa using h

theorem digitChar_isDigit : ∀ d < 10, (Nat.digitChar d).isDigit = true := by decide

theorem digitChar_value : ∀ d < 10, (Nat.digitChar d).toNat - '0'.toNat = d := by decide

theorem digitChar_plain : ∀ d < 10, isWs (Nat.digitChar d) = false ∧ Nat.digitChar d ≠ '"' ∧
    Nat.digitChar d ≠ 'n' := by decide

theorem run_toDigits (key : String) (ms : Members) (n : Nat) :
    run ⟨.value key, ms⟩ (Nat.toDigits 10 n) = some ⟨.num key n, ms⟩ := by
  induction n using Nat.strongRecOn with
  | ind n ih =>
    by_cases hlt : n < 10
    · obtain ⟨hws, hquote, hnull⟩ := digitChar_plain n hlt
      rw [Nat.toDigits_of_lt_base hlt]
      simp [run_cons, run_nil, step, hws, hquote, hnull, digitChar_isDigit n hlt]
      exact digitChar_value n hlt
    · have hmod : n % 10 < 10 := Nat.mod_lt n (by decide)
      have hne : n / 10 ≠ 0 := by omega
      have hsum : n / 10 * 10 + n % 10 = n := by omega
      rw [Nat.toDigits_of_base_le (by decide) (by omega), run_append, ih (n / 10) (by omega),
        Option.bind_some, run_cons]
      simp only [step, digitChar_isDigit _ hmod, if_true, if_neg hne, digitChar_value _ hmod, hsum,
        Option.bind_some, run_nil]

theorem run_value (key : String) (v : Value) (ms : Members) (hc : c = ',' ∨ c = '}') :
    run ⟨.value key, ms⟩ (v.dump ++ [c]) = afterValue (ms ++ [(key, v)]) c := by
  rw [run_append]
  cases v with
  | null => rcases hc with rfl | rfl <;> rfl
  | nat n =>
    have hdigit : c.isDigit = false := by rcases hc with rfl | rfl <;> rfl
    rw [Value.dump, PyStr.toList_toString, run_toDigits, Option.bind_some, run_cons]
    simp only [step, hdigit, Bool.false_eq_true, if_false]
    cases afterValue (ms ++ [(key, .nat n)]) c <;> rfl
  | str s =>
    have h := run_text (fun str buf => ⟨.str key str buf, ms⟩)
      (fun buf => ⟨.next, ms ++ [(key, .str (String.ofList buf))]⟩) (fun _ _ _ => rfl) s.toList []
    have hopen : step ⟨.value key, ms⟩ '"' = some ⟨.str key .text [], ms⟩ := rfl
    rw [Value.dump, quoted, run_cons, hopen, Option.bind_some, h, Option.bind_some, run_cons]
    simp only [List.nil_append, String.ofList_toList, step]
    cases afterValue (ms ++ [(key, .str s)]) c <;> rfl

theorem run_member (m : String × Value) (ms : Members) (hc : c = ',' ∨ c = '}') :
    run ⟨.key .text [], ms⟩ ((dumpMember m).tail ++ [c]) = afterValue (ms ++ [m]) c := by
  have hsplit : (dumpMember m).tail ++ [c] =
      (m.1.toList.flatMap escapeChar ++ ['"']) ++ (':' :: ' ' :: (m.2.dump ++ [c])) := by
    simp [dumpMember, quoted]
  rw [hsplit, run_append, run_key, Option.bind_some]
  exact run_value m.1 m.2 ms hc

theorem dumpMember_eq (m : String × Value) : dumpMember m = '"' :: (dumpMember m).tail := rfl

theorem run_members (m : String × Value) (more ms : Members) :
    run ⟨.key .text [], ms⟩ ((dumpMember m).tail ++ dumpRest more) =
      some ⟨.done, ms ++ m :: more⟩ := by
  induction more generalizing m ms with
  | nil =>
    rw [dumpRest, run_member m ms (.inr rfl)]
    rfl
  | cons m' more ih =>
    have hsplit : (dumpMember m).tail ++ dumpRest (m' :: more) = ((dumpMember m).tail ++ [',']) ++
        (' ' :: (dumpMember m' ++ dumpRest more)) := by
      simp [dumpRest]
    have hcomma : afterValue (ms ++ [m]) ',' = some ⟨.comma, ms ++ [m]⟩ := rfl
    have hspace : step ⟨.comma, ms ++ [m]⟩ ' ' = some ⟨.comma, ms ++ [m]⟩ := rfl
    have hquote : step ⟨.comma, ms ++ [m]⟩ '"' = some ⟨.key .text [], ms ++ [m]⟩ := rfl
    rw [hsplit, run_append, run_member m ms (.inl rfl), hcomma, Option.bind_some, run_cons, hspace,
      Option.bind_some, dumpMember_eq, List.cons_append, run_cons, hquote, Option.bind_some, ih]
    simp

theorem run_dump (ms : Members) : run ⟨.start, []⟩ (dump ms) = some ⟨.done, ms⟩ := by
  cases ms with
  | nil => rfl
  | cons m ms =>
    have hbrace : step ⟨.start, []⟩ '{' = some ⟨.opened, []⟩ := rfl
    have hquote : step ⟨.opened, []⟩ '"' = some ⟨.key .text [], []⟩ := rfl
    rw [dump, run_cons, hbrace, Option.bind_some, dumpMember_eq, List.cons_append, run_cons, hquote,
      Option.bind_some, run_members]
    rfl

/-- **What was written reads back.** -/
theorem load_dump (ms : Members) : load (dump ms) = some ms := by
  simp [load, run_dump]

end

example : load (dump [("ts", .str "2026-01-01T00:00:00"), ("src", .str "a\n\"b\".pcap"), ("size", .nat 24),
    ("sha256", .null)]) = some [("ts", .str "2026-01-01T00:00:00"), ("src", .str "a\n\"b\".pcap"),
    ("size", .nat 24), ("sha256", .null)] := by decide +kernel

/-! ## Torn texts -/

section
variable {s s' : State} {ms : Members} {p q : List Char}

theorem ws_of_done (h : run ⟨.done, ms⟩ q = some s) : ∀ c ∈ q, isWs c = true := by
  induction q with
  | nil => simp
  | cons c q ih =>
    rw [run_cons] at h
    obtain ⟨t, ht, h⟩ := Option.bind_eq_some_iff.mp h
    obtain ⟨hws, ht⟩ := Option.ite_none_right_eq_some.mp ht
    cases ht
    intro d hd
    rcases List.mem_cons.mp hd with rfl | hd
    · exact hws
    · exact ih h d hd

theorem dumpRest_last (ms : Members) : (dumpRest ms).getLast? = some '}' := by
  induction ms with
  | nil => rfl
  | cons m ms ih =>
    rw [dumpRest, List.getLast?_cons_cons, List.getLast?_cons, List.getLast?_append, ih]
    rfl

theorem dump_last (ms : Members) : (dump ms).getLast? = some '}' := by
  cases ms with
  | nil => rfl
  | cons m ms =>
    rw [dump, List.getLast?_cons, List.getLast?_append, dumpRest_last]
    rfl

theorem load_take (h : p <+: dump ms) (hne : p ≠ dump ms) : load p = none := by
  obtain ⟨q, hq⟩ := h
  have hqne : q ≠ [] := by
    rintro rfl
    exact hne (by simpa using hq)
  have hrun := run_dump ms
  rw [← hq, run_append] at hrun
  obtain ⟨s, hs, hrest⟩ := Option.bind_eq_some_iff.mp hrun
  have hnot : s.pos ≠ .done := by
    intro hdone
    obtain ⟨pos, members⟩ := s
    cases hdone
    -- the brace at the end is among what is left
    have hlast : q.getLast? = some '}' := by
      have h := dump_last ms
      rwa [← hq, List.getLast?_append, List.getLast?_eq_some_getLast hqne, Option.some_or,
        ← List.getLast?_eq_some_getLast hqne] at h
    exact absurd (ws_of_done hrest '}' (List.mem_of_getLast? hlast)) (by decide)
  simp [load, hs, hnot]

theorem inStr_eq {more : Str → List Char → State} {close : List Char → State} {str : Str}
    {buf : List Char} {c : Char} (h : inStr more close str buf c = some s) :
    s = close buf ∨ ∃ str buf, s = more str buf := by
  unfold inStr at h
  split at h
  · cases h; exact .inl rfl
  · obtain ⟨r, -, rfl⟩ := Option.map_eq_some_iff.mp h
    exact .inr ⟨_, _, rfl⟩

theorem afterValue_pos {c : Char} (h : afterValue ms c = some s) : s.pos ≠ .start := by
  unfold afterValue at h
  split_ifs at h <;> cases h <;> simp

theorem beforeKey_pos {pos : At} {c : Char} (h : beforeKey pos ms c = some s) (hpos : pos ≠ .start) :
    s.pos ≠ .start := by
  unfold beforeKey at h
  split_ifs at h
  · cases h; exact hpos
  · cases h; simp

/-- The reader never goes back to the start. -/
theorem step_begun {c : Char} (h : step s c = some s') (hs : s.pos ≠ .start) : s'.pos ≠ .start := by
  obtain ⟨pos, ms⟩ := s
  cases pos with
  | start => exact absurd rfl hs
  | opened =>
    simp only [step] at h
    split at h
    · cases h; simp
    · exact beforeKey_pos h (by simp)
  | key str buf =>
    simp only [step] at h
    rcases inStr_eq h with rfl | ⟨_, _, rfl⟩ <;> simp
  | str key str buf =>
    simp only [step] at h
    rcases inStr_eq h with rfl | ⟨_, _, rfl⟩ <;> simp
  | colon key | value key =>
    simp only [step] at h
    split_ifs at h <;> cases h <;> simp
  | lit key k =>
    cases (Option.ite_none_right_eq_some.mp h).2
    split <;> simp
  | num key n =>
    simp only [step] at h
    split_ifs at h
    · cases h; simp
    · exact afterValue_pos h
  | next => exact afterValue_pos h
  | comma => exact beforeKey_pos h (by simp)
  | done => cases (Option.ite_none_right_eq_some.mp h).2; simp

theorem run_begun (h : run s p = some s') (hs : s.pos ≠ .start) : s'.pos ≠ .start := by
  induction p generalizing s with
  | nil => cases h; exact hs
  | cons c p ih =>
    rw [run_cons] at h
    obtain ⟨t, ht, h⟩ := Option.bind_eq_some_iff.mp h
    exact ih h (step_begun ht hs)

/-- No text takes a brace but as one of its characters. -/
theorem inStr_brace {more : Str → List Char → State} {close : List Char → State} {str : Str}
    {buf : List Char} (h : inStr more close str buf '{' = some s) : ∃ buf, s = more .text buf := by
  cases str with
  | text => cases h; exact ⟨_, rfl⟩
  | esc high => cases high <;> cases h
  | uni high k acc => cases h
  | half high => cases h

/-- Behind the start, a brace can only be part of a text. -/
theorem step_brace (h : step s '{' = some s') (hs : s.pos ≠ .start) :
    (∃ buf, s'.pos = .key .text buf) ∨ ∃ key buf, s'.pos = .str key .text buf := by
  obtain ⟨pos, ms⟩ := s
  cases pos with
  | start => exact absurd rfl hs
  | key str buf =>
    simp only [step] at h
    obtain ⟨buf, rfl⟩ := inStr_brace h
    exact .inl ⟨buf, rfl⟩
  | str key str buf =>
    simp only [step] at h
    obtain ⟨buf, rfl⟩ := inStr_brace h
    exact .inr ⟨key, buf, rfl⟩
  | lit key k =>
    have hmem := List.mem_of_getElem? (Option.ite_none_right_eq_some.mp h).1
    exact absurd hmem (by decide)
  | opened | colon | value | num | next | comma | done => cases h

/-- And a quote then ends that text, behind which no letter is expected. -/
theorem run_brace_quote (h : run s ['{', '"'] = some s') (hs : s.pos ≠ .start) :
    s'.pos ≠ .done ∧ ∀ c, c.isAlpha = true → step s' c = none := by
  have hletter : ∀ c : Char, c.isAlpha = true → isWs c = false ∧ c ≠ ':' ∧ c ≠ ',' ∧ c ≠ '}' := by
    intro c hc
    have hne : ∀ d : Char, d.isAlpha = false → c ≠ d := by
      rintro d hd rfl
      cases hc.symm.trans hd
    refine ⟨?_, hne _ rfl, hne _ rfl, hne _ rfl⟩
    simp only [isWs, List.mem_cons, List.not_mem_nil, or_false, decide_eq_false_iff_not, not_or]
    exact ⟨hne _ rfl, hne _ rfl, hne _ rfl, hne _ rfl⟩
  rw [run_cons] at h
  obtain ⟨t, ht, h⟩ := Option.bind_eq_some_iff.mp h
  obtain ⟨pos, ms⟩ := t
  rcases step_brace ht hs with ⟨buf, hpos⟩ | ⟨key, buf, hpos⟩
  · cases hpos
    cases h
    refine ⟨by simp, fun c hc => ?_⟩
    obtain ⟨hws, hcolon, -, -⟩ := hletter c hc
    simp [step, hws, hcolon]
  · cases hpos
    cases h
    refine ⟨by simp, fun c hc => ?_⟩
    obtain ⟨hws, -, hcomma, hbrace⟩ := hletter c hc
    simp [step, afterValue, hws, hcomma, hbrace]

theorem letter_range {c : Char} (hc : c.isAlpha = true) : 0x20 ≤ c.toNat ∧ c.toNat ≤ 0x7e := by
  have hranges : (decide (c.val ≥ 'A'.val ∧ c.val ≤ 'Z'.val) ||
      decide (c.val ≥ 'a'.val) && decide (c.val ≤ 'z'.val)) = true := hc
  simp only [Bool.or_eq_true, Bool.and_eq_true, decide_eq_true_eq, ge_iff_le,
    UInt32.le_iff_toNat_le] at hranges
  rcases hranges with ⟨hlow, hhigh⟩ | ⟨hlow, hhigh⟩ <;> simp at hlow hhigh <;> omega

theorem escapeChar_letter {c : Char} (hc : c.isAlpha = true) : escapeChar c = [c] := by
  have hne : ∀ d : Char, d.isAlpha = false → c ≠ d := by
    rintro d hd rfl
    cases hc.symm.trans hd
  have hspecial : c ≠ '"' ∧ c ≠ '\\' ∧ c ≠ '\n' ∧ c ≠ '\r' ∧ c ≠ '\t' ∧ c ≠ '\x08' ∧ c ≠ '\x0c' :=
    ⟨hne _ rfl, hne _ rfl, hne _ rfl, hne _ rfl, hne _ rfl, hne _ rfl, hne _ rfl⟩
  simp [escapeChar, hspecial, letter_range hc]

theorem dump_head {m : String × Value} {c : Char} {cs : List Char} (ms : Members)
    (hkey : m.1.toList = c :: cs) (hc : c.isAlpha = true) :
    ∃ rest, dump (m :: ms) = '{' :: '"' :: c :: rest := by
  rw [dump, dumpMember, quoted, hkey, List.flatMap_cons, escapeChar_letter hc]
  exact ⟨_, rfl⟩

/-- **Behind a text that has begun, no part of an object makes one.** -/
theorem not_done_glued {m : String × Value} {c : Char} {cs : List Char} (hkey : m.1.toList = c :: cs)
    (hc : c.isAlpha = true) (hs : s.pos ≠ .start) (hq : q <+: dump (m :: ms)) (hne : q ≠ [])
    (h : run s q = some s') : s'.pos ≠ .done := by
  obtain ⟨rest, hdump⟩ := dump_head ms hkey hc
  rw [hdump] at hq
  rcases q with _ | ⟨a, _ | ⟨b, q⟩⟩
  · exact absurd rfl hne
  · obtain ⟨rfl, -⟩ := List.cons_prefix_cons.mp hq
    rw [run_cons] at h
    obtain ⟨t, ht, h⟩ := Option.bind_eq_some_iff.mp h
    cases h
    rcases step_brace ht hs with ⟨buf, hpos⟩ | ⟨key, buf, hpos⟩ <;> simp [hpos]
  · obtain ⟨rfl, hq₁⟩ := List.cons_prefix_cons.mp hq
    obtain ⟨rfl, hq₂⟩ := List.cons_prefix_cons.mp hq₁
    have hsplit : '{' :: '"' :: q = ['{', '"'] ++ q := rfl
    rw [hsplit, run_append] at h
    obtain ⟨t, ht, h⟩ := Option.bind_eq_some_iff.mp h
    obtain ⟨hdone, hletter⟩ := run_brace_quote ht hs
    cases q with
    | nil => cases h; exact hdone
    | cons d q =>
      obtain ⟨rfl, -⟩ := List.cons_prefix_cons.mp hq₂
      rw [run_cons, hletter d hc] at h
      cases h

/-- So what begins with part of one object and ends with part of another does not
read, whatever stands between them. -/
theorem load_glued {m : String × Value} {c : Char} {cs : List Char} (hkey : m.1.toList = c :: cs)
    (hc : c.isAlpha = true) {ms' : Members} (hp : p <+: dump ms') (hpne : p ≠ []) (t : List Char)
    (hq : q <+: dump (m :: ms)) (hqne : q ≠ []) : load (p ++ t ++ q) = none := by
  have hdone : ∀ s, run ⟨.start, []⟩ (p ++ t ++ q) = some s → s.pos ≠ .done := by
    intro s hrun
    rw [run_append, run_append] at hrun
    obtain ⟨u, hu, hlast⟩ := Option.bind_eq_some_iff.mp hrun
    obtain ⟨v, hv, hmid⟩ := Option.bind_eq_some_iff.mp hu
    -- the brace of the first object has been read
    obtain ⟨b, p, rfl⟩ := List.exists_cons_of_ne_nil hpne
    have hb : b = '{' := by
      cases ms' <;> exact (List.cons_prefix_cons.mp hp).1
    subst hb
    obtain ⟨w, hw, hv⟩ := Option.bind_eq_some_iff.mp (run_cons _ _ p ▸ hv)
    cases hw
    exact not_done_glued hkey hc (run_begun hmid (run_begun hv (by simp))) hq hqne hlast
  cases hrun : run ⟨.start, []⟩ (p ++ t ++ q) with
  | none => rw [load, hrun, Option.bind_none]
  | some s => rw [load, hrun, Option.bind_some, if_neg (hdone s hrun)]

end

/-! ## One line -/

theorem newline_not_mem_escapeChar (c : Char) : '\n' ∉ escapeChar c := by
  have hdigit : ∀ d < 16, hexDigit d ≠ '\n' := by decide
  have hunicode : ∀ n, '\n' ∉ unicode n := by
    intro n
    have h : ∀ m, hexDigit (m % 16) ≠ '\n' := fun m => hdigit _ (Nat.mod_lt m (by decide))
    simp [unicode, (h _).symm]
  unfold escapeChar
  split_ifs with _ _ hnl
  all_goals first
    | exact hunicode _
    | simp [hunicode]
  exact Ne.symm hnl

theorem newline_not_mem_quoted (s : String) : '\n' ∉ quoted s := by
  simp only [quoted, List.mem_cons, List.mem_append, List.mem_flatMap, List.not_mem_nil, or_false, not_or,
    not_exists, not_and]
  exact ⟨by decide, fun c _ => newline_not_mem_escapeChar c, by decide⟩

theorem newline_not_mem_value (v : Value) : '\n' ∉ v.dump := by
  cases v with
  | null => decide
  | nat n =>
    intro h
    exact absurd (PyStr.isDigit_of_mem_toString h) (by decide)
  | str s => exact newline_not_mem_quoted s

theorem newline_not_mem_member (m : String × Value) : '\n' ∉ dumpMember m := by
  simp [dumpMember, newline_not_mem_quoted, newline_not_mem_value]

theorem newline_not_mem_rest (ms : Members) : '\n' ∉ dumpRest ms := by
  induction ms with
  | nil => decide
  | cons m ms ih => simp [dumpRest, newline_not_mem_member, ih]

/-- An object is on one line, whatever its texts are. -/
theorem newline_not_mem_dump (ms : Members) : '\n' ∉ dump ms := by
  cases ms with
  | nil => decide
  | cons m ms => simp [dump, newline_not_mem_member, newline_not_mem_rest]

end JsonLine
