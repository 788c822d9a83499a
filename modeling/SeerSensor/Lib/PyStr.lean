/-
Python's text functions, as far as programs use them that read the output of
commands and the answers of operators: `split` and `splitlines` without
arguments, `strip`, `isdigit`, and `int` of a stripped text.

`split_columns` is what splitting does to a row of columns: the empty ones are
lost, and nothing else. `int_toString` is that a number written out is read
back.
-/
import Mathlib.Data.List.Basic

namespace PyStr

/-- `str.isspace`, of one character. -/
def isSpace (c : Char) : Bool :=
  c.toNat ∈ [0x9, 0xa, 0xb, 0xc, 0xd, 0x1c, 0x1d, 0x1e, 0x1f, 0x20, 0x85, 0xa0, 0x1680, 0x2000, 0x2001,
    0x2002, 0x2003, 0x2004, 0x2005, 0x2006, 0x2007, 0x2008, 0x2009, 0x200a, 0x2028, 0x2029, 0x202f, 0x205f,
    0x3000]

/-- Where `splitlines` breaks. -/
def isLineBreak (c : Char) : Bool :=
  c.toNat ∈ [0xa, 0xb, 0xc, 0xd, 0x1c, 0x1d, 0x1e, 0x85, 0x2028, 0x2029]

/-- The zeros of Unicode's decimal digits; the other nine follow each of them. -/
def decimalZeros : List Nat :=
  [0x30, 0x660, 0x6f0, 0x7c0, 0x966, 0x9e6, 0xa66, 0xae6, 0xb66, 0xbe6, 0xc66, 0xce6, 0xd66, 0xde6, 0xe50,
    0xed0, 0xf20, 0x1040, 0x1090, 0x17e0, 0x1810, 0x1946, 0x19d0, 0x1a80, 0x1a90, 0x1b50, 0x1bb0, 0x1c40,
    0x1c50, 0xa620, 0xa8d0, 0xa900, 0xa9d0, 0xa9f0, 0xaa50, 0xabf0, 0xff10, 0x104a0, 0x10d30, 0x11066,
    0x110f0, 0x11136, 0x111d0, 0x112f0, 0x11450, 0x114d0, 0x11650, 0x116c0, 0x11730, 0x118e0, 0x11950,
    0x11c50, 0x11d50, 0x11da0, 0x16a60, 0x16ac0, 0x16b50, 0x1d7ce, 0x1d7d8, 0x1d7e2, 0x1d7ec, 0x1d7f6,
    0x1e140, 0x1e2f0, 0x1e950, 0x1fbf0]

/-- The value of a decimal digit. -/
def decimal (c : Char) : Option Nat :=
  (decimalZeros.find? fun z => z ≤ c.toNat && c.toNat < z + 10).map (c.toNat - ·)

/-- `s.split()`: the runs between white space. -/
def split (s : String) : List String :=
  ((s.toList.splitOnP isSpace).filter (· ≠ [])).map String.ofList

/-- `s.splitlines()`: a break at the very end begins no line. -/
def splitlines (s : String) : List String :=
  let pieces := s.toList.splitOnP isLineBreak
  (if pieces.getLast? = some [] then pieces.dropLast else pieces).map String.ofList

/-- `s.strip()`. -/
def strip (s : String) : String :=
  String.ofList (((s.toList.dropWhile isSpace).reverse.dropWhile isSpace).reverse)

/-- `s.isdigit()`, of decimal digits. -/
def isdigit (s : String) : Bool := decide (s ≠ "") && s.toList.all fun c => (decimal c).isSome

/-- Digits after the first; an underscore may stand between two. -/
def intFrom (acc : Nat) : List Char → Option Nat
  | [] => some acc
  | '_' :: c :: cs => (decimal c).bind fun d => intFrom (10 * acc + d) cs
  | c :: cs => (decimal c).bind fun d => intFrom (10 * acc + d) cs

/-- A number without its sign. -/
def intUnsigned : List Char → Option Nat
  | [] => none
  | c :: cs => (decimal c).bind fun d => intFrom d cs

/-- `int(s)` of a stripped text; `none` is a `ValueError`. -/
def int (s : String) : Option Int :=
  match s.toList with
  | '-' :: cs => (intUnsigned cs).map fun n => -(n : Int)
  | '+' :: cs => (intUnsigned cs).map fun n => (n : Int)
  | cs => (intUnsigned cs).map fun n => (n : Int)

/-! ## Columns and lines -/

/-- Columns with one separator between each two. -/
def join (sep : Char) (columns : List String) : String :=
  String.ofList ([sep].intercalate (columns.map String.toList))

/-- The text has no character of the kind. -/
def Without (p : Char → Bool) (s : String) : Prop := ∀ c ∈ s.toList, p c = false

instance (p : Char → Bool) (s : String) : Decidable (Without p s) :=
  List.decidableBAll (fun c => p c = false) s.toList

section
variable {p : Char → Bool} {sep : Char}

/-- Splitting a row at its separators gives the columns back. -/
theorem splitOnP_join (hsep : p sep = true) {columns : List String} (hne : columns ≠ [])
    (h : ∀ s ∈ columns, Without p s) :
    (join sep columns).toList.splitOnP p = columns.map String.toList := by
  unfold join
  rw [String.toList_ofList]
  induction columns with
  | nil => exact absurd rfl hne
  | cons s columns ih =>
    have hs : ∀ c ∈ s.toList, p c = false := h s (by simp)
    cases columns with
    | nil => simpa using List.splitOnP_eq_singleton hs
    | cons t columns =>
      have hrest := ih (by simp) fun u hu => h u (by simp [hu])
      simp only [List.map_cons, List.intercalate_cons_cons] at hrest ⊢
      rw [List.append_assoc, List.singleton_append, List.splitOnP_append_cons_of_forall_mem hs sep hsep, hrest]

/-- **What splitting keeps of a row**: the columns that are not empty. -/
theorem split_columns {columns : List String} (hne : columns ≠ [])
    (h : ∀ s ∈ columns, Without isSpace s) :
    split (join ' ' columns) = columns.filter (· ≠ "") := by
  unfold split
  rw [splitOnP_join (by decide) hne h, List.filter_map, List.map_map]
  have hid : (String.ofList ∘ String.toList) = id := funext fun s => String.ofList_toList
  rw [hid, List.map_id]
  refine List.filter_congr fun s _ => ?_
  simp

theorem Without.lineBreak {s : String} (h : Without isSpace s) : Without isLineBreak s := by
  intro c hc
  have hsub : [0xa, 0xb, 0xc, 0xd, 0x1c, 0x1d, 0x1e, 0x85, 0x2028, 0x2029] ⊆
      [0x9, 0xa, 0xb, 0xc, 0xd, 0x1c, 0x1d, 0x1e, 0x1f, 0x20, 0x85, 0xa0, 0x1680, 0x2000, 0x2001,
        0x2002, 0x2003, 0x2004, 0x2005, 0x2006, 0x2007, 0x2008, 0x2009, 0x200a, 0x2028, 0x2029, 0x202f, 0x205f,
        0x3000] := by decide
  have hspace := h c hc
  simp only [isSpace, isLineBreak, decide_eq_false_iff_not] at hspace ⊢
  exact fun hbreak => hspace (hsub hbreak)

/-- A row has none of what its columns have none of, the separator apart. -/
theorem Without.join {columns : List String} (hsep : p sep = false) (h : ∀ s ∈ columns, Without p s) :
    Without p (join sep columns) := by
  unfold Without PyStr.join
  rw [String.toList_ofList]
  induction columns with
  | nil => simp
  | cons s columns ih =>
    have hs : ∀ c ∈ s.toList, p c = false := h s (by simp)
    have hrest := ih fun u hu => h u (by simp [hu])
    cases columns with
    | nil => simpa using hs
    | cons t columns =>
      simp only [List.map_cons, List.intercalate_cons_cons, List.mem_append, List.mem_singleton] at hrest ⊢
      rintro c ((hc | rfl) | hc)
      · exact hs c hc
      · exact hsep
      · exact hrest c hc

/-- Lines, each with its break. -/
def unlines (lines : List String) : String :=
  String.ofList (lines.flatMap fun l => l.toList ++ ['\n'])

theorem splitlines_unlines {lines : List String} (h : ∀ l ∈ lines, Without isLineBreak l) :
    splitlines (unlines lines) = lines := by
  have hpieces : (unlines lines).toList.splitOnP isLineBreak = lines.map String.toList ++ [[]] := by
    unfold unlines
    rw [String.toList_ofList]
    induction lines with
    | nil => rfl
    | cons l lines ih =>
      have hl : ∀ c ∈ l.toList, isLineBreak c = false := h l (by simp)
      rw [List.flatMap_cons, List.append_assoc, List.singleton_append,
        List.splitOnP_append_cons_of_forall_mem hl '\n' (by decide), ih fun k hk => h k (by simp [hk])]
      rfl
  unfold splitlines
  simp only [hpieces, List.getLast?_append, List.getLast?_singleton, Option.some_or, if_true,
    List.dropLast_concat, List.map_map]
  have hid : (String.ofList ∘ String.toList) = id := funext fun s => String.ofList_toList
  rw [hid, List.map_id]

end

/-! ## Stripping -/

theorem dropWhile_of_forall {p : Char → Bool} {cs : List Char} (h : ∀ c ∈ cs, p c = false) :
    cs.dropWhile p = cs := by
  cases cs with
  | nil => rfl
  | cons c cs => rw [List.dropWhile_cons_of_neg (by simp [h c (by simp)])]

theorem strip_of_without {s : String} (h : Without isSpace s) : strip s = s := by
  rw [strip, dropWhile_of_forall h, dropWhile_of_forall fun c hc => h c (List.mem_reverse.mp hc),
    List.reverse_reverse, String.ofList_toList]

/-! ## Numbers -/

theorem toList_toString (n : Nat) : (toString n).toList = Nat.toDigits 10 n := Nat.toList_repr

theorem isDigit_of_mem_toString {n : Nat} {c : Char} (h : c ∈ (toString n).toList) : c.isDigit = true := by
  rw [toList_toString] at h
  exact Nat.isDigit_of_mem_toDigits (by decide) (by decide) h

theorem toString_head (n : Nat) : ∃ c cs, (toString n).toList = c :: cs ∧ c.isDigit = true := by
  cases hd : (toString n).toList with
  | nil =>
    rw [toList_toString] at hd
    exact absurd hd Nat.toDigits_ne_nil
  | cons c cs => exact ⟨c, cs, rfl, isDigit_of_mem_toString (n := n) (by rw [hd]; simp)⟩

theorem ofDigitChars_toString (n : Nat) : Nat.ofDigitChars 10 (toString n).toList 0 = n := by
  rw [toList_toString, Nat.ofDigitChars_ten_toDigits]

/-- The digits of ASCII, by Unicode's table. -/
theorem decimal_of_isDigit {c : Char} (h : c.isDigit = true) : decimal c = some (c.toNat - '0'.toNat) := by
  have hlo : 0x30 ≤ c.toNat := by
    simp only [Char.isDigit, Bool.and_eq_true, decide_eq_true_eq] at h
    exact h.1
  have hhi : c.toNat < 0x30 + 10 := by
    simp only [Char.isDigit, Bool.and_eq_true, decide_eq_true_eq] at h
    exact Nat.lt_succ_of_le h.2
  unfold decimal decimalZeros
  rw [List.find?_cons_of_pos (by simp [hlo, hhi])]
  rfl

theorem intFrom_digits {cs : List Char} (h : ∀ c ∈ cs, c.isDigit = true) (acc : Nat) :
    intFrom acc cs = some (Nat.ofDigitChars 10 cs acc) := by
  induction cs generalizing acc with
  | nil => rfl
  | cons c cs ih =>
    have hc := h c (by simp)
    have hne : c ≠ '_' := by
      rintro rfl
      exact absurd hc (by decide)
    rw [intFrom.eq_3 _ _ _ (fun _ _ he _ => hne he), decimal_of_isDigit hc, Option.bind_some,
      ih fun d hd => h d (by simp [hd]), Nat.ofDigitChars_cons]

theorem toString_without_space (n : Nat) : Without isSpace (toString n) := by
  intro c hc
  have hdigit := isDigit_of_mem_toString hc
  simp only [Char.isDigit, Bool.and_eq_true, decide_eq_true_eq] at hdigit
  have hlo : 0x30 ≤ c.toNat := hdigit.1
  have hhi : c.toNat ≤ 0x39 := hdigit.2
  simp only [isSpace, decide_eq_false_iff_not, List.mem_cons, List.not_mem_nil, or_false, not_or]
  omega

/-- **A number written out is read back.** -/
theorem int_toString (n : Nat) : int (toString n) = some (n : Int) := by
  obtain ⟨c, cs, hcs, hc⟩ := toString_head n
  have hread : intUnsigned (c :: cs) = some n := by
    have hdigits : ∀ d ∈ cs, d.isDigit = true := fun d hd =>
      isDigit_of_mem_toString (n := n) (by rw [hcs]; simp [hd])
    have hval := ofDigitChars_toString n
    rw [hcs, Nat.ofDigitChars_cons] at hval
    rw [intUnsigned, decimal_of_isDigit hc, Option.bind_some, intFrom_digits hdigits]
    simpa using hval
  unfold int
  rw [hcs]
  split
  next heq => exact absurd hc (by rw [(List.cons.inj heq).1]; decide)
  next heq => exact absurd hc (by rw [(List.cons.inj heq).1]; decide)
  next => rw [hread]; rfl

end PyStr
