/-
A text log that is only ever appended to, one line an entry, where an append may
stop anywhere. What can be read back is not simply what was written in full: a
line that was cut short has no newline, so the next append continues it and its
first entry is lost with it.

`Book` says this exactly: the entries that read back so far, and what the text
ends with. The codec is any pair of a writer and a reader for which a part of a
line is no line, and neither is anything that was glued to one.

Where lines have no such reader, `intact` is what there is to say: the entries that
stand on lines of their own, and they do stand there in the text.
-/
import Mathlib.Data.List.Infix

namespace LineLog

/-- How an entry is written, and what a line is read as. -/
structure Codec (α : Type*) where
  line : α → List Char
  read : List Char → Option α
  newline : ∀ a, '\n' ∉ line a
  line_ne_nil : ∀ a, line a ≠ []
  read_nil : read [] = none
  read_line : ∀ a, read (line a) = some a
  read_part : ∀ a p, p <+: line a → p ≠ line a → read p = none
  read_glued : ∀ a b p t q, p <+: line a → p ≠ [] → q <+: line b → q ≠ [] → read (p ++ t ++ q) = none

variable {α : Type*}

/-- An append that wrote `whole` of its lines and then `cut` characters of the next. -/
structure Append (α : Type*) where
  entries : List α
  whole : Nat
  cut : Nat

/-- The entries whose lines are whole. -/
def Append.kept (a : Append α) : List α := a.entries.take a.whole

/-- The entry whose line may be cut. -/
def Append.next (a : Append α) : Option α := a.entries[a.whole]?

/-- Whole lines. -/
def writeLines (C : Codec α) (es : List α) : List Char := es.flatMap fun e => C.line e ++ ['\n']

/-- The beginning of a line. -/
def writePart (C : Codec α) (next : Option α) (cut : Nat) : List Char :=
  (next.map fun e => (C.line e).take cut).getD []

/-- What the append adds to the text. -/
def Append.text (C : Codec α) (a : Append α) : List Char :=
  writeLines C a.kept ++ writePart C a.next a.cut

/-- Every line that can be read, in order. -/
def readLog (C : Codec α) (text : List Char) : List α :=
  (text.splitOnP (· == '\n')).filterMap C.read

/-! ## What reads back -/

/-- What a log ends with: a newline or nothing, a line that lacks only its
newline, or what is no line. -/
inductive Tail (α : Type*) where
  | clean
  | whole (a : α)
  | torn

/-- The entries that read back, and what the text ends with. -/
structure Book (α : Type*) where
  lines : List α := []
  tail : Tail α := .clean

/-- Whole lines: the first of them ends what was there. -/
def Book.addLines (b : Book α) : List α → Book α
  | [] => b
  | e :: es =>
    match b.tail with
    | .clean => ⟨b.lines ++ e :: es, .clean⟩
    | _ => ⟨b.lines ++ es, .clean⟩

/-- A line that is cut spoils what it is glued to. -/
def Book.addPart (C : Codec α) (b : Book α) (next : Option α) (cut : Nat) : Book α :=
  match next, cut with
  | none, _ => b
  | some _, 0 => b
  | some e, cut + 1 =>
    match b.tail with
    | .clean => { b with tail := if (C.line e).length ≤ cut + 1 then .whole e else .torn }
    | _ => { b with tail := .torn }

/-- What an append does to the book. -/
def Book.append (C : Codec α) (b : Book α) (a : Append α) : Book α :=
  (b.addLines a.kept).addPart C a.next a.cut

/-- All that reads back. -/
def Book.entries (b : Book α) : List α :=
  b.lines ++ match b.tail with
    | .whole a => [a]
    | _ => []

section
variable {C : Codec α} {b : Book α} {text : List Char} {a : Append α}

/-- The text has the beginning of a line at its front. -/
def Begun (C : Codec α) (t : List Char) : Prop := ∃ a p rest, p <+: C.line a ∧ p ≠ [] ∧ t = p ++ rest

/-- The text behind the last newline is what the tail says. -/
inductive TailIs (C : Codec α) : List Char → Tail α → Prop
  | clean : TailIs C [] .clean
  | whole (a : α) : TailIs C (C.line a) (.whole a)
  | torn {t : List Char} : Begun C t → C.read t = none → TailIs C t .torn

/-- The text is what the book says. -/
structure Holds (C : Codec α) (text : List Char) (b : Book α) (segs : List (List Char))
    (tail : List Char) : Prop where
  text : text = segs.flatMap (· ++ ['\n']) ++ tail
  seg : ∀ s ∈ segs, '\n' ∉ s
  newline : '\n' ∉ tail
  lines : segs.filterMap C.read = b.lines
  tailIs : TailIs C tail b.tail

theorem Begun.append {t : List Char} (h : Begun C t) (more : List Char) : Begun C (t ++ more) := by
  obtain ⟨a, p, rest, hp, hne, rfl⟩ := h
  exact ⟨a, p, rest ++ more, hp, hne, List.append_assoc _ _ _⟩

theorem begun_line (C : Codec α) (a : α) : Begun C (C.line a) :=
  ⟨a, C.line a, [], List.prefix_rfl, C.line_ne_nil a, (List.append_nil _).symm⟩

theorem Begun.read_glued {t q : List Char} {e : α} (h : Begun C t) (hq : q <+: C.line e) (hne : q ≠ []) :
    C.read (t ++ q) = none := by
  obtain ⟨a, p, rest, hp, hpne, rfl⟩ := h
  exact C.read_glued a e p rest q hp hpne hq hne

theorem TailIs.begun {t : List Char} {tail : Tail α} (h : TailIs C t tail) (hne : tail ≠ .clean) :
    Begun C t := by
  cases h with
  | clean => exact absurd rfl hne
  | whole a => exact begun_line C a
  | torn hb => exact hb

theorem splitOnP_lines {segs : List (List Char)} {tail : List Char} (hsegs : ∀ s ∈ segs, '\n' ∉ s)
    (htail : '\n' ∉ tail) :
    (segs.flatMap (· ++ ['\n']) ++ tail).splitOnP (· == '\n') = segs ++ [tail] := by
  have hnot : ∀ {s : List Char}, '\n' ∉ s → ∀ x ∈ s, (x == '\n') = false := by
    intro s hs x hx
    exact beq_eq_false_iff_ne.mpr fun he => hs (he ▸ hx)
  induction segs with
  | nil => exact List.splitOnP_eq_singleton (hnot htail)
  | cons s segs ih =>
    have hsplit : (s :: segs).flatMap (· ++ ['\n']) ++ tail =
        s ++ '\n' :: (segs.flatMap (· ++ ['\n']) ++ tail) := by
      simp
    rw [hsplit, List.splitOnP_append_cons_of_forall_mem (hnot (hsegs s (by simp))) _ (by simp),
      ih fun t ht => hsegs t (by simp [ht])]
    rfl

theorem Holds.read {segs : List (List Char)} {tail : List Char} (h : Holds C text b segs tail) :
    readLog C text = b.entries := by
  rw [readLog, h.text, splitOnP_lines h.seg h.newline, List.filterMap_append, h.lines, Book.entries]
  congr 1
  have htail := h.tailIs
  generalize b.tail = t at htail
  cases htail with
  | clean => simp [C.read_nil]
  | whole a => simp [C.read_line]
  | torn _ hread => simp [hread]

theorem holds_nil (C : Codec α) : Holds C [] {} [] [] :=
  ⟨rfl, by simp, by simp, rfl, .clean⟩

theorem filterMap_read_lines (C : Codec α) (es : List α) : (es.map C.line).filterMap C.read = es := by
  induction es with
  | nil => rfl
  | cons e es ih => simp [C.read_line, ih]

theorem Holds.addLines {segs : List (List Char)} {tail : List Char} (h : Holds C text b segs tail)
    (es : List α) : ∃ segs' tail', Holds C (text ++ writeLines C es) (b.addLines es) segs' tail' := by
  cases es with
  | nil => exact ⟨segs, tail, by simpa [writeLines, Book.addLines] using h⟩
  | cons e es =>
    -- the first line ends what the text ended with
    refine ⟨segs ++ (tail ++ C.line e) :: es.map C.line, [], ?_, ?_, by simp, ?_, ?_⟩
    · rw [h.text]
      simp [writeLines, List.flatMap_map]
    · intro s hs
      simp only [List.mem_append, List.mem_cons, List.mem_map] at hs
      rcases hs with hs | rfl | ⟨f, -, rfl⟩
      · exact h.seg s hs
      · simpa using ⟨h.newline, C.newline e⟩
      · exact C.newline f
    · rw [List.filterMap_append, h.lines, List.filterMap_cons, filterMap_read_lines]
      have htail := h.tailIs
      unfold Book.addLines
      generalize b.tail = t at htail
      cases htail with
      | clean => simp [C.read_line]
      | whole a =>
        simp [(begun_line C a).read_glued List.prefix_rfl (C.line_ne_nil e)]
      | torn hb hread => simp [hb.read_glued List.prefix_rfl (C.line_ne_nil e)]
    · unfold Book.addLines
      dsimp only
      split <;> exact .clean

theorem Holds.addPart {segs : List (List Char)} {tail : List Char} (h : Holds C text b segs tail)
    (next : Option α) (cut : Nat) :
    ∃ tail', Holds C (text ++ writePart C next cut) (b.addPart C next cut) segs tail' := by
  cases next with
  | none => exact ⟨tail, by simpa [writePart, Book.addPart] using h⟩
  | some e =>
    cases cut with
    | zero => exact ⟨tail, by simpa [writePart, Book.addPart] using h⟩
    | succ k =>
      have hpart : writePart C (some e) (k + 1) = (C.line e).take (k + 1) := rfl
      have hcut : (C.line e).take (k + 1) <+: C.line e := List.take_prefix _ _
      have hne : (C.line e).take (k + 1) ≠ [] := by
        rw [ne_eq, List.take_eq_nil_iff, not_or]
        exact ⟨by simp, C.line_ne_nil e⟩
      have hbegun : Begun C ((C.line e).take (k + 1)) := ⟨e, _, [], hcut, hne, (List.append_nil _).symm⟩
      refine ⟨tail ++ (C.line e).take (k + 1), ?_, h.seg, ?_, ?_, ?_⟩
      · rw [h.text, hpart, List.append_assoc]
      · simp only [List.mem_append, not_or]
        exact ⟨h.newline, fun hmem => C.newline e (hcut.subset hmem)⟩
      · rw [h.lines]
        unfold Book.addPart
        dsimp only
        split <;> rfl
      · have htail := h.tailIs
        unfold Book.addPart
        dsimp only
        generalize b.tail = t at htail
        cases htail with
        | clean =>
          dsimp only [List.nil_append]
          split
          · next hle =>
            rw [List.take_of_length_le hle]
            exact .whole e
          · next hlt =>
            refine .torn hbegun (C.read_part e _ hcut fun heq => hlt ?_)
            rw [← heq, List.length_take]
            exact Nat.min_le_left _ _
        | whole a =>
          exact .torn ((begun_line C a).append _) ((begun_line C a).read_glued hcut hne)
        | torn hb hread => exact .torn (hb.append _) (hb.read_glued hcut hne)

theorem Holds.append {segs : List (List Char)} {tail : List Char} (h : Holds C text b segs tail)
    (a : Append α) : ∃ segs' tail', Holds C (text ++ a.text C) (b.append C a) segs' tail' := by
  obtain ⟨segs', tail', hlines⟩ := h.addLines a.kept
  obtain ⟨tail'', hpart⟩ := hlines.addPart a.next a.cut
  refine ⟨segs', tail'', ?_⟩
  rw [Append.text, ← List.append_assoc]
  exact hpart

theorem holds_appends (C : Codec α) (as : List (Append α)) :
    ∃ segs tail, Holds C (as.flatMap (Append.text C)) (as.foldl (Book.append C) {}) segs tail := by
  suffices h : ∀ (text : List Char) (b : Book α) segs tail, Holds C text b segs tail →
      ∃ segs tail, Holds C (text ++ as.flatMap (Append.text C)) (as.foldl (Book.append C) b) segs tail by
    simpa using h [] {} [] [] (holds_nil C)
  induction as with
  | nil => exact fun text b segs tail h => ⟨segs, tail, by simpa using h⟩
  | cons a as ih =>
    intro text b segs tail h
    obtain ⟨segs', tail', h'⟩ := h.append a
    simpa using ih _ _ segs' tail' h'

/-- **What can be read back** after any appends, each stopped anywhere. -/
theorem readLog_appends (C : Codec α) (as : List (Append α)) :
    readLog C (as.flatMap (Append.text C)) = (as.foldl (Book.append C) {}).entries := by
  obtain ⟨segs, tail, h⟩ := holds_appends C as
  exact h.read

/-- The append stopped inside a line. -/
def Append.isCut (a : Append α) : Bool := a.next.isSome && a.cut != 0

theorem Book.addPart_uncut (h : a.isCut = false) (b : Book α) : b.addPart C a.next a.cut = b := by
  cases hnext : a.next with
  | none => rfl
  | some e =>
    have hcut : a.cut = 0 := by simpa [Append.isCut, hnext] using h
    rw [hcut]
    rfl

theorem Book.addLines_clean (lines es : List α) :
    Book.addLines ⟨lines, .clean⟩ es = ⟨lines ++ es, .clean⟩ := by
  cases es with
  | nil => simp [Book.addLines]
  | cons e es => rfl

/-- With no line cut, everything written in full reads back. -/
theorem foldl_append_uncut {as : List (Append α)} (h : ∀ a ∈ as, a.isCut = false) :
    as.foldl (Book.append C) {} = ⟨as.flatMap Append.kept, .clean⟩ := by
  suffices hall : ∀ lines, as.foldl (Book.append C) ⟨lines, .clean⟩ =
      ⟨lines ++ as.flatMap Append.kept, .clean⟩ by
    simpa using hall []
  induction as with
  | nil => simp
  | cons a as ih =>
    intro lines
    rw [List.foldl_cons, Book.append, Book.addLines_clean, Book.addPart_uncut (h a (by simp)),
      ih fun b hb => h b (by simp [hb])]
    simp

/-! ## What is lost -/

/-- Whether the next line would be glued to it. -/
def Tail.debt : Tail α → Nat
  | .clean => 0
  | _ => 1

theorem Book.addLines_debt (b : Book α) (es : List α) :
    b.lines.length + es.length + (b.addLines es).tail.debt ≤
      (b.addLines es).lines.length + b.tail.debt := by
  cases es with
  | nil => exact Nat.le_refl _
  | cons e es =>
    cases htail : b.tail <;> simp [Book.addLines, htail, Tail.debt]
    all_goals omega

theorem Book.addPart_debt (b : Book α) (a : Append α) :
    (b.addPart C a.next a.cut).lines = b.lines ∧
      (b.addPart C a.next a.cut).tail.debt ≤ b.tail.debt + a.isCut.toNat := by
  cases hcut : a.isCut with
  | false =>
    rw [Book.addPart_uncut hcut]
    exact ⟨rfl, Nat.le_refl _⟩
  | true =>
    have hdebt : ∀ t : Tail α, t.debt ≤ 1 := by
      rintro (_ | _ | _) <;> simp [Tail.debt]
    refine ⟨?_, (hdebt _).trans (Nat.le_add_left _ _)⟩
    unfold Book.addPart
    split
    · rfl
    · rfl
    · split <;> rfl

/-- A cut line takes at most one other entry with it. -/
theorem foldl_append_lost (C : Codec α) (as : List (Append α)) :
    (as.flatMap Append.kept).length ≤
      (as.foldl (Book.append C) {}).entries.length + as.countP Append.isCut := by
  suffices h : ∀ b : Book α, b.lines.length + (as.flatMap Append.kept).length +
      (as.foldl (Book.append C) b).tail.debt ≤
      (as.foldl (Book.append C) b).lines.length + b.tail.debt + as.countP Append.isCut by
    have hstart := h {}
    have hlines : ∀ b : Book α, b.lines.length ≤ b.entries.length := by
      intro b
      rw [Book.entries, List.length_append]
      exact Nat.le_add_right _ _
    have hend := hlines (as.foldl (Book.append C) {})
    simp only [List.length_nil, Tail.debt] at hstart
    omega
  induction as with
  | nil => intro b; simp
  | cons a as ih =>
    intro b
    have hrest := ih (b.append C a)
    have hwhole := b.addLines_debt a.kept
    obtain ⟨hlines, hpart⟩ := (b.addLines a.kept).addPart_debt (C := C) a
    have hcount : (a :: as).countP Append.isCut = as.countP Append.isCut + a.isCut.toNat := by
      cases hcut : a.isCut <;> simp [hcut]
    rw [List.foldl_cons, List.flatMap_cons, List.length_append, hcount]
    unfold Book.append at hrest ⊢
    rw [hlines] at hrest
    omega

theorem Book.addLines_entries (b : Book α) (es : List α) : (b.addLines es).entries ⊆ b.entries ++ es := by
  intro x hx
  cases es with
  | nil => exact List.mem_append_left _ hx
  | cons e es =>
    have hall : x ∈ b.lines ∨ x ∈ e :: es := by
      cases htail : b.tail <;> simp [Book.addLines, htail, Book.entries] at hx ⊢
      · exact hx
      all_goals exact hx.imp_right .inr
    exact List.mem_append.mpr (hall.imp_left (List.mem_append_left _))

theorem Book.addPart_entries (b : Book α) (a : Append α) :
    (b.addPart C a.next a.cut).entries ⊆ b.entries ++ a.entries := by
  intro x hx
  unfold Book.addPart at hx
  split at hx
  · exact List.mem_append_left _ hx
  · exact List.mem_append_left _ hx
  · next e cut hnext _ =>
    have hcases : x ∈ b.lines ∨ x = e := by
      revert hx
      dsimp only [Book.entries]
      split
      · split
        · simp
        · simp +contextual
      · simp +contextual
    rcases hcases with hx | rfl
    · exact List.mem_append_left _ (List.mem_append_left _ hx)
    · exact List.mem_append_right _ (List.mem_of_getElem? hnext)

/-- And nothing reads back that no append was asked to write. -/
theorem foldl_append_subset (C : Codec α) (as : List (Append α)) :
    (as.foldl (Book.append C) {}).entries ⊆ as.flatMap Append.entries := by
  suffices h : ∀ b : Book α,
      (as.foldl (Book.append C) b).entries ⊆ b.entries ++ as.flatMap Append.entries by
    simpa [Book.entries] using h {}
  induction as with
  | nil => intro b; simp
  | cons a as ih =>
    intro b x hx
    rw [List.flatMap_cons, ← List.append_assoc]
    rcases List.mem_append.mp (ih _ hx) with hx | hx
    · refine List.mem_append_left _ ?_
      rcases List.mem_append.mp (Book.addPart_entries _ a hx) with hx | hx
      · rcases List.mem_append.mp (Book.addLines_entries b _ hx) with hx | hx
        · exact List.mem_append_left _ hx
        · exact List.mem_append_right _ (List.mem_of_mem_take hx)
      · exact List.mem_append_right _ hx
    · exact List.mem_append_right _ hx

end

/-! ## Lines without a reader -/

/-- What a write of one line has left: all of it with its newline, or a beginning. -/
inductive Piece (α : Type*) where
  | whole (a : α)
  | part (a : α) (cut : Nat)

/-- The entry it is of. -/
def Piece.entry : Piece α → α
  | .whole a => a
  | .part a _ => a

/-- What it adds to the text. -/
def Piece.text (line : α → List Char) : Piece α → List Char
  | .whole a => line a ++ ['\n']
  | .part a cut => (line a).take cut

/-- The entries that stand on lines of their own, behind a text that ends a line or not. -/
def intact (line : α → List Char) : Bool → List (Piece α) → List α
  | _, [] => []
  | true, .whole a :: ps => a :: intact line true ps
  | false, .whole _ :: ps => intact line true ps
  | ended, .part a cut :: ps => intact line (ended && ((line a).take cut).isEmpty) ps

/-- The text behind these pieces starts on a line of its own. -/
def ends (line : α → List Char) : Bool → List (Piece α) → Bool
  | ended, [] => ended
  | _, .whole _ :: ps => ends line true ps
  | ended, .part a cut :: ps => ends line (ended && ((line a).take cut).isEmpty) ps

section
variable {line : α → List Char} {ended : Bool} {ps qs : List (Piece α)} {a : α} {cut : Nat}

/-- **What is intact stands in the text.** -/
theorem intact_sublist_lines (hline : ∀ p ∈ ps, '\n' ∉ line p.entry) :
    ((intact line true ps).map line).Sublist ((ps.flatMap (Piece.text line)).splitOnP (· == '\n')) := by
  -- behind the beginning `t` of a line, which is empty where the text before has ended one
  suffices h : ∀ t : List Char, '\n' ∉ t → ((intact line t.isEmpty ps).map line).Sublist
      ((t ++ ps.flatMap (Piece.text line)).splitOnP (· == '\n')) by
    simpa using h [] (by simp)
  induction ps with
  | nil => exact fun t _ => by simp [intact]
  | cons p ps ih =>
    obtain ⟨hp, hps⟩ := List.forall_mem_cons.mp hline
    intro t ht
    cases p with
    | part a cut =>
      have hcut : '\n' ∉ (line a).take cut := fun hmem => hp (List.mem_of_mem_take hmem)
      have hnext := ih hps (t ++ (line a).take cut) (by simp [ht, hcut])
      have hended : (t ++ (line a).take cut).isEmpty = (t.isEmpty && ((line a).take cut).isEmpty) := by
        cases t <;> simp
      rw [hended, List.append_assoc] at hnext
      cases t <;> exact hnext
    | whole a =>
      have hsplit : (t ++ (Piece.whole a :: ps).flatMap (Piece.text line)).splitOnP (· == '\n') =
          (t ++ line a) :: (ps.flatMap (Piece.text line)).splitOnP (· == '\n') := by
        have hnot : ∀ x ∈ t ++ line a, (x == '\n') = false := by
          intro x hx
          refine beq_eq_false_iff_ne.mpr fun he => ?_
          rcases List.mem_append.mp (he ▸ hx) with hx | hx
          · exact ht hx
          · exact hp hx
        have htext : t ++ (Piece.whole a :: ps).flatMap (Piece.text line) =
            (t ++ line a) ++ '\n' :: ps.flatMap (Piece.text line) := by
          simp [Piece.text]
        rw [htext, List.splitOnP_append_cons_of_forall_mem hnot _ (by simp)]
      have hnext := ih hps [] (by simp)
      rw [hsplit]
      cases t with
      | nil => exact List.Sublist.cons_cons _ (by simpa using hnext)
      | cons c t => exact List.Sublist.cons _ (by simpa [intact] using hnext)

end

end LineLog
