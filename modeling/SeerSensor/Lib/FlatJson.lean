/-
Flat JSON objects, as Python's `json.dump(…, indent=2)` writes them and `json.load`
reads them: members whose values are `null`, booleans, natural numbers and texts
of plain characters.

`load_dump` is the round trip. `load_take` is what a reader of an unfinished
file meets: the closing brace is the last character and the only one of its kind,
so no text that stops short of it is an object.
-/
import Mathlib.Data.List.TakeDrop
import SeerSensor.Lib.PyStr

namespace FlatJson

open PyStr (toList_toString isDigit_of_mem_toString toString_head)

/-- The values of a flat object. -/
inductive Value where
  | null
  | bool (b : Bool)
  | nat (n : Nat)
  | str (s : String)
  deriving DecidableEq

abbrev Members := List (String × Value)

/-! ## Writing -/

/-- Characters that are written as they are, and no part of an object's own writing. -/
def isPlain (c : Char) : Bool := c.isAlphanum || decide (c ∈ ['_', '-', ':', '.', '+'])

/-- The text holds plain characters only. -/
def Plain (s : String) : Prop := ∀ c ∈ s.toList, isPlain c = true

instance (s : String) : Decidable (Plain s) := List.decidableBAll (fun c => isPlain c = true) s.toList

/-- A text is plain; nothing else needs to be. -/
def Value.Plain : Value → Prop
  | .str s => FlatJson.Plain s
  | _ => True

/-- A text in its quotes. -/
def quoted (s : String) : List Char := '"' :: (s.toList ++ ['"'])

/-- A value as it is written. -/
def Value.dump : Value → List Char
  | .null => ['n', 'u', 'l', 'l']
  | .bool true => ['t', 'r', 'u', 'e']
  | .bool false => ['f', 'a', 'l', 's', 'e']
  | .nat n => (toString n).toList
  | .str s => quoted s

/-- A key and its value. -/
def dumpMember (m : String × Value) : List Char := quoted m.1 ++ (':' :: ' ' :: m.2.dump)

/-- What follows the first member. -/
def dumpRest : Members → List Char
  | [] => ['\n', '}']
  | m :: ms => ',' :: '\n' :: ' ' :: ' ' :: (dumpMember m ++ dumpRest ms)

/-- `json.dumps(members, indent=2)`. -/
def dump : Members → List Char
  | [] => ['{', '}']
  | m :: ms => '{' :: '\n' :: ' ' :: ' ' :: (dumpMember m ++ dumpRest ms)

/-! ## Reading -/

/-- White space of JSON. -/
def isWs (c : Char) : Bool := decide (c ∈ [' ', '\t', '\n', '\r'])

def skipWs (cs : List Char) : List Char := cs.dropWhile isWs

/-- A character that a text may have as it is. -/
def inString (c : Char) : Bool := c ≠ '"' && c ≠ '\\' && decide (0x20 ≤ c.toNat)

/-- A text, from behind its opening quote. -/
def parseString (cs : List Char) : Option (String × List Char) :=
  match cs.dropWhile inString with
  | '"' :: rest => some (String.ofList (cs.takeWhile inString), rest)
  | _ => none

/-- A number, without leading zeros. -/
def parseNat (cs : List Char) : Option (Nat × List Char) :=
  match cs.takeWhile Char.isDigit with
  | [] => none
  | '0' :: _ :: _ => none
  | ds => some (Nat.ofDigitChars 10 ds 0, cs.dropWhile Char.isDigit)

/-- A value and what follows it. -/
def parseValue : List Char → Option (Value × List Char)
  | 'n' :: 'u' :: 'l' :: 'l' :: rest => some (.null, rest)
  | 't' :: 'r' :: 'u' :: 'e' :: rest => some (.bool true, rest)
  | 'f' :: 'a' :: 'l' :: 's' :: 'e' :: rest => some (.bool false, rest)
  | '"' :: rest => (parseString rest).map fun r => (.str r.1, r.2)
  | cs => (parseNat cs).map fun r => (.nat r.1, r.2)

/-- A member, from its key on, and the delimiter behind it: whether another follows. -/
def parseMember : List Char → Option ((String × Value) × Bool × List Char)
  | '"' :: cs =>
    (parseString cs).bind fun key =>
      match skipWs key.2 with
      | ':' :: cs =>
        (parseValue (skipWs cs)).bind fun value =>
          match skipWs value.2 with
          | ',' :: rest => some ((key.1, value.1), true, rest)
          | '}' :: rest => some ((key.1, value.1), false, rest)
          | _ => none
      | _ => none
  | _ => none

/-- Members up to the closing brace, for at most so many. -/
def parseMembers : Nat → List Char → Option (Members × List Char)
  | 0, _ => none
  | fuel + 1, cs =>
    (parseMember cs).bind fun r =>
      if r.2.1 then (parseMembers fuel (skipWs r.2.2)).map fun more => (r.1 :: more.1, more.2)
      else some ([r.1], r.2.2)

/-- An object, from behind its opening brace. -/
def parseObject (fuel : Nat) (cs : List Char) : Option (Members × List Char) :=
  match skipWs cs with
  | '}' :: rest => some ([], rest)
  | cs => parseMembers fuel cs

/-- `json.load` of a text; `none` is a `JSONDecodeError`. -/
def load (text : List Char) : Option Members :=
  match skipWs text with
  | '{' :: cs => (parseObject text.length cs).bind fun r => if skipWs r.2 = [] then some r.1 else none
  | _ => none

/-! ## The round trip -/

section
variable {s : String} {v : Value} {m : String × Value} {ms : Members} {rest : List Char}

theorem inString_of_isPlain {c : Char} (h : isPlain c = true) : inString c = true := by
  by_contra hnot
  simp only [inString, ne_eq, Bool.and_eq_true, decide_eq_true_eq, not_and_or, not_not] at hnot
  rcases hnot with (rfl | rfl) | hlow
  · exact absurd h (by decide)
  · exact absurd h (by decide)
  · have hall : ∀ n < 0x20, isPlain (Char.ofNat n) = false := by decide
    have hc := hall c.toNat (by omega)
    rw [Char.ofNat_toNat, h] at hc
    cases hc

theorem parseString_quoted (h : Plain s) (rest : List Char) :
    parseString (s.toList ++ '"' :: rest) = some (s, rest) := by
  have hall : ∀ c ∈ s.toList, inString c = true := fun c hc => inString_of_isPlain (h c hc)
  have hquote : ¬ inString '"' = true := by decide
  unfold parseString
  rw [List.dropWhile_append_of_pos hall, List.takeWhile_append_of_pos hall,
    List.dropWhile_cons_of_neg hquote, List.takeWhile_cons_of_neg hquote, List.append_nil,
    String.ofList_toList]
  rfl

theorem toDigits_ne_zero_cons (n : Nat) (c : Char) (cs : List Char) : Nat.toDigits 10 n ≠ '0' :: c :: cs := by
  intro h
  induction n using Nat.strongRecOn generalizing c cs with
  | ind n ih =>
    by_cases hlt : n < 10
    · rw [Nat.toDigits_of_lt_base hlt] at h
      exact List.cons_ne_nil _ _ (List.cons.inj h).2.symm
    · rw [Nat.toDigits_of_base_le (by decide) (by omega)] at h
      have hval := Nat.ofDigitChars_ten_toDigits (n := n / 10)
      cases hd : Nat.toDigits 10 (n / 10) with
      | nil => exact Nat.toDigits_ne_nil hd
      | cons e es =>
        rw [hd, List.cons_append] at h
        obtain ⟨rfl, hes⟩ := List.cons.inj h
        cases es with
        | nil =>
          rw [hd] at hval
          have hzero : n / 10 = 0 := hval.symm
          omega
        | cons f fs => exact ih (n / 10) (by omega) f fs hd

/-- What may follow a value. -/
def Delimited (rest : List Char) : Prop := ∀ c ∈ rest.head?, c.isDigit = false

theorem parseNat_toString (n : Nat) (h : Delimited rest) :
    parseNat ((toString n).toList ++ rest) = some (n, rest) := by
  have hdigit : ∀ c ∈ (toString n).toList, c.isDigit = true := fun c hc => isDigit_of_mem_toString hc
  have hrest : rest.takeWhile Char.isDigit = [] ∧ rest.dropWhile Char.isDigit = rest := by
    cases rest with
    | nil => exact ⟨rfl, rfl⟩
    | cons c cs =>
      have hc : ¬ c.isDigit = true := by simp [h c rfl]
      exact ⟨List.takeWhile_cons_of_neg hc, List.dropWhile_cons_of_neg hc⟩
  unfold parseNat
  rw [List.takeWhile_append_of_pos hdigit, List.dropWhile_append_of_pos hdigit, hrest.1, hrest.2,
    List.append_nil, toList_toString]
  split
  next hnil => exact absurd hnil Nat.toDigits_ne_nil
  next c cs hzero => exact absurd hzero (toDigits_ne_zero_cons n c cs)
  next => rw [Nat.ofDigitChars_ten_toDigits]

theorem parseValue_dump (hv : v.Plain) (h : Delimited rest) :
    parseValue (v.dump ++ rest) = some (v, rest) := by
  cases v with
  | null => rfl
  | bool b => cases b <;> rfl
  | str s =>
    have hs : parseString (s.toList ++ '"' :: rest) = some (s, rest) := parseString_quoted hv rest
    simp only [Value.dump, quoted, List.cons_append, List.append_assoc, List.nil_append, parseValue, hs,
      Option.map_some]
  | nat n =>
    have hn := parseNat_toString n h
    -- a number begins with a digit, which no other value does
    obtain ⟨c, cs, hcs, hc⟩ := toString_head n
    simp only [Value.dump, hcs, List.cons_append] at hn ⊢
    unfold parseValue
    split
    next heq => exact absurd hc (by rw [(List.cons.inj heq).1]; decide)
    next heq => exact absurd hc (by rw [(List.cons.inj heq).1]; decide)
    next heq => exact absurd hc (by rw [(List.cons.inj heq).1]; decide)
    next heq => exact absurd hc (by rw [(List.cons.inj heq).1]; decide)
    next => rw [hn, Option.map_some]

theorem skipWs_cons {c : Char} (h : isWs c = false) : skipWs (c :: rest) = c :: rest :=
  List.dropWhile_cons_of_neg (by simp [h])

theorem skipWs_dump : skipWs (v.dump ++ rest) = v.dump ++ rest := by
  cases v with
  | null => exact skipWs_cons (by decide)
  | bool b => cases b <;> exact skipWs_cons (by decide)
  | str s => exact skipWs_cons (by decide)
  | nat n =>
    obtain ⟨c, cs, hcs, hc⟩ := toString_head n
    have hws : isWs c = false := by
      by_contra hnot
      simp only [isWs, Bool.not_eq_false, decide_eq_true_eq, List.mem_cons, List.not_mem_nil, or_false] at hnot
      rcases hnot with rfl | rfl | rfl | rfl <;> exact absurd hc (by decide)
    simp only [Value.dump, hcs, List.cons_append]
    exact skipWs_cons hws

/-- Keys and values are plain. -/
def PlainMembers (ms : Members) : Prop := ∀ m ∈ ms, Plain m.1 ∧ m.2.Plain

theorem parseMember_dump (hm : Plain m.1 ∧ m.2.Plain) (h : Delimited rest) {more : Bool} {c : Char}
    {cs : List Char} (hrest : skipWs rest = c :: cs) (hc : c = if more then ',' else '}') :
    parseMember (dumpMember m ++ rest) = some (m, more, cs) := by
  have hkey := parseString_quoted hm.1 (':' :: ' ' :: (m.2.dump ++ rest))
  have hcolon : skipWs (':' :: ' ' :: (m.2.dump ++ rest)) = ':' :: ' ' :: (m.2.dump ++ rest) :=
    skipWs_cons (by decide)
  have hspace : skipWs (' ' :: (m.2.dump ++ rest)) = m.2.dump ++ rest := skipWs_dump
  simp only [dumpMember, quoted, List.cons_append, List.append_assoc, List.nil_append, parseMember, hkey,
    Option.bind_some, hcolon, hspace, parseValue_dump hm.2 h, hrest]
  cases more <;> (subst hc; rfl)

theorem skipWs_dumpMember : skipWs (dumpMember m ++ rest) = dumpMember m ++ rest := skipWs_cons (by decide)

theorem parseMembers_dump (h : PlainMembers (m :: ms)) {fuel : Nat} (hfuel : ms.length < fuel) :
    parseMembers fuel (dumpMember m ++ dumpRest ms) = some (m :: ms, []) := by
  induction ms generalizing m fuel with
  | nil =>
    obtain ⟨fuel, rfl⟩ := Nat.exists_eq_add_one.mpr (Nat.lt_of_le_of_lt (Nat.zero_le _) hfuel)
    have hlast : parseMember (dumpMember m ++ dumpRest []) = some (m, false, []) :=
      parseMember_dump (h m (by simp)) (by rintro c ⟨⟩; decide) (by decide) rfl
    simp [parseMembers, hlast]
  | cons n ms ih =>
    obtain ⟨fuel, rfl⟩ := Nat.exists_eq_add_one.mpr (Nat.lt_of_le_of_lt (Nat.zero_le _) hfuel)
    have hfirst : parseMember (dumpMember m ++ dumpRest (n :: ms)) =
        some (m, true, '\n' :: ' ' :: ' ' :: (dumpMember n ++ dumpRest ms)) :=
      parseMember_dump (h m (by simp)) (by rintro c ⟨⟩; decide) (skipWs_cons (by decide)) rfl
    have hskip : skipWs ('\n' :: ' ' :: ' ' :: (dumpMember n ++ dumpRest ms)) = dumpMember n ++ dumpRest ms :=
      skipWs_dumpMember
    have hrest : parseMembers fuel (dumpMember n ++ dumpRest ms) = some (n :: ms, []) :=
      ih (fun k hk => h k (List.mem_cons_of_mem _ hk)) (by simpa using hfuel)
    simp [parseMembers, hfirst, hskip, hrest]

theorem length_dumpRest (ms : Members) : ms.length < (dumpRest ms).length := by
  induction ms with
  | nil => decide
  | cons m ms ih =>
    simp only [dumpRest, List.length_cons, List.length_append]
    omega

/-- **What was written is read back.** -/
theorem load_dump (h : PlainMembers ms) : load (dump ms) = some ms := by
  cases ms with
  | nil => rfl
  | cons m ms =>
    have hskip : skipWs ('\n' :: ' ' :: ' ' :: (dumpMember m ++ dumpRest ms)) = dumpMember m ++ dumpRest ms :=
      skipWs_dumpMember
    have hfuel : ms.length < (dump (m :: ms)).length := by
      have hrest := length_dumpRest ms
      simp only [dump, List.length_cons, List.length_append]
      omega
    have hobject : parseObject (dump (m :: ms)).length ('\n' :: ' ' :: ' ' :: (dumpMember m ++ dumpRest ms)) =
        some (m :: ms, []) := by
      unfold parseObject
      rw [hskip, ← parseMembers_dump h hfuel]
      rfl
    have hopen : skipWs (dump (m :: ms)) = '{' :: '\n' :: ' ' :: ' ' :: (dumpMember m ++ dumpRest ms) :=
      skipWs_cons (by decide)
    unfold load
    rw [hopen]
    simp only [hobject, Option.bind_some]
    rfl

/-! ## Texts that stop short -/

theorem skipWs_suffix (cs : List Char) : skipWs cs <:+ cs := List.dropWhile_suffix _

theorem parseString_suffix {cs : List Char} (h : parseString cs = some (s, rest)) : rest <:+ cs := by
  unfold parseString at h
  split at h
  next r hd =>
    cases h
    have hdrop : '"' :: rest <:+ cs := hd ▸ List.dropWhile_suffix _
    exact (List.suffix_cons _ _).trans hdrop
  next => cases h

theorem parseNat_suffix {cs : List Char} {n : Nat} (h : parseNat cs = some (n, rest)) : rest <:+ cs := by
  unfold parseNat at h
  split at h
  next => cases h
  next => cases h
  next =>
    cases h
    exact List.dropWhile_suffix _

theorem parseValue_suffix {cs : List Char} (h : parseValue cs = some (v, rest)) : rest <:+ cs := by
  unfold parseValue at h
  split at h
  next r => cases h; exact ⟨['n', 'u', 'l', 'l'], rfl⟩
  next r => cases h; exact ⟨['t', 'r', 'u', 'e'], rfl⟩
  next r => cases h; exact ⟨['f', 'a', 'l', 's', 'e'], rfl⟩
  next r =>
    obtain ⟨⟨s, r'⟩, hs, he⟩ := Option.map_eq_some_iff.mp h
    cases he
    exact (parseString_suffix hs).trans (List.suffix_cons _ _)
  next =>
    obtain ⟨⟨n, r'⟩, hn, he⟩ := Option.map_eq_some_iff.mp h
    cases he
    exact parseNat_suffix hn

/-- The delimiter behind a member stands in the text, and the rest behind it. -/
theorem parseMember_suffix {cs : List Char} {more : Bool} (h : parseMember cs = some (m, more, rest)) :
    (if more then ',' else '}') :: rest <:+ cs := by
  unfold parseMember at h
  split at h
  next cs' =>
    obtain ⟨⟨key, r⟩, hkey, h⟩ := Option.bind_eq_some_iff.mp h
    split at h
    next cs'' hcolon =>
      obtain ⟨⟨value, r'⟩, hval, h⟩ := Option.bind_eq_some_iff.mp h
      have hr : r' <:+ '"' :: cs' := by
        have hcs : cs'' <:+ r := (List.suffix_cons ':' cs'').trans (hcolon ▸ skipWs_suffix r)
        exact (parseValue_suffix hval).trans ((skipWs_suffix _).trans
          (hcs.trans ((parseString_suffix hkey).trans (List.suffix_cons _ _))))
      split at h
      next hcomma => cases h; exact (hcomma ▸ skipWs_suffix r').trans hr
      next hbrace => cases h; exact (hbrace ▸ skipWs_suffix r').trans hr
      next => cases h
    next => cases h
  next => cases h

theorem brace_mem_of_parseMembers {fuel : Nat} {cs : List Char} (h : parseMembers fuel cs = some (ms, rest)) :
    '}' ∈ cs := by
  induction fuel generalizing cs ms rest with
  | zero => cases h
  | succ fuel ih =>
    obtain ⟨⟨m, more, r⟩, hm, h⟩ := Option.bind_eq_some_iff.mp h
    have hsuffix := parseMember_suffix hm
    cases more with
    | true =>
      obtain ⟨⟨ms', r'⟩, hms, -⟩ := Option.map_eq_some_iff.mp h
      have hr : r <:+ cs := (List.suffix_cons ',' r).trans hsuffix
      exact hr.subset ((skipWs_suffix r).subset (ih hms))
    | false => exact hsuffix.subset (by simp)

theorem brace_mem_of_load {text : List Char} (h : load text = some ms) : '}' ∈ text := by
  unfold load at h
  split at h
  next cs hopen =>
    obtain ⟨⟨ms', r⟩, hobject, -⟩ := Option.bind_eq_some_iff.mp h
    have hcs : cs <:+ text := (List.suffix_cons '{' cs).trans (hopen ▸ skipWs_suffix text)
    refine hcs.subset ((skipWs_suffix cs).subset ?_)
    unfold parseObject at hobject
    split at hobject
    next rest hclose => rw [hclose]; simp
    next => exact brace_mem_of_parseMembers hobject
  next => cases h

theorem brace_not_mem_of_plain (h : Plain s) : '}' ∉ s.toList := fun hc => absurd (h _ hc) (by decide)

theorem brace_not_mem_dump (hv : v.Plain) : '}' ∉ v.dump := by
  cases v with
  | null => decide
  | bool b => cases b <;> decide
  | str s => simpa [Value.dump, quoted] using brace_not_mem_of_plain hv
  | nat n =>
    intro hc
    exact absurd (isDigit_of_mem_toString hc) (by decide)

theorem brace_not_mem_dumpMember (hm : Plain m.1 ∧ m.2.Plain) : '}' ∉ dumpMember m := by
  simp [dumpMember, quoted, brace_not_mem_of_plain hm.1, brace_not_mem_dump hm.2]

theorem dumpRest_eq (h : PlainMembers ms) : ∃ body, dumpRest ms = body ++ ['}'] ∧ '}' ∉ body := by
  induction ms with
  | nil => exact ⟨['\n'], rfl, by decide⟩
  | cons m ms ih =>
    obtain ⟨body, hbody, hnot⟩ := ih fun k hk => h k (List.mem_cons_of_mem _ hk)
    refine ⟨',' :: '\n' :: ' ' :: ' ' :: (dumpMember m ++ body), by simp [dumpRest, hbody], ?_⟩
    simp [hnot, brace_not_mem_dumpMember (h m (by simp))]

/-- The closing brace is the last character of an object, and the only one. -/
theorem dump_eq (h : PlainMembers ms) : ∃ body, dump ms = body ++ ['}'] ∧ '}' ∉ body := by
  cases ms with
  | nil => exact ⟨['{'], rfl, by decide⟩
  | cons m ms =>
    obtain ⟨body, hbody, hnot⟩ := dumpRest_eq fun k hk => h k (List.mem_cons_of_mem m hk)
    refine ⟨'{' :: '\n' :: ' ' :: ' ' :: (dumpMember m ++ body), by simp [dump, hbody], ?_⟩
    simp [hnot, brace_not_mem_dumpMember (h m (by simp))]

/-- **The beginning of an object is none.** -/
theorem load_take (h : PlainMembers ms) {k : Nat} (hk : k < (dump ms).length) :
    load ((dump ms).take k) = none := by
  obtain ⟨body, hbody, hnot⟩ := dump_eq h
  rw [Option.eq_none_iff_forall_ne_some]
  intro ms' hload
  have hmem := brace_mem_of_load hload
  rw [hbody] at hmem hk
  rw [List.length_append, List.length_singleton] at hk
  rw [List.take_append_of_le_length (by omega)] at hmem
  exact hnot (List.mem_of_mem_take hmem)

end

end FlatJson
