import DeployTarget.Json.Printer
import DeployTarget.Proofs.QuotedText

/-!
# Folded texts

Compact text escapes line feeds and carriage returns, but writes three other line breaks as
they are.  A reader of documents folds the lines of a quoted text: blanks around its line
breaks are dropped, and the next line becomes a blank or a line feed.  A mark of a document at
the beginning of a line is no part of a text at all.
-/

namespace DeployTarget.Yaml

open Writer

namespace Lexeme

/-! ## What is read of a text -/

/-- The line breaks that compact text writes as they are. -/
def isRawBreak (c : Char) : Bool :=
  c == '\u0085' || c == '\u2028' || c == '\u2029'

theorem isRawBreak_iff {c : Char} :
    isRawBreak c = true ↔ c = '\u0085' ∨ c = '\u2028' ∨ c = '\u2029' := by
  simp [isRawBreak, or_assoc]

/-- What is read of a text behind a gap, which is read already. -/
def foldedTail (gap : Gap) : List Char → List Char
  | [] => gap.folded
  | c :: rest =>
      if c = ' ' then foldedTail (gap.addBlank c) rest
      else if isRawBreak c then foldedTail (gap.addBreak (Cursor.breakCharacter [c])) rest
      else gap.folded ++ c :: foldedTail .none rest

/-- What is read of a text that compact text writes between quotes. -/
def folded (text : List Char) : List Char :=
  foldedTail .none text

/-- Whether a blank or a line break comes next. -/
def breaksWord : List Char → Bool
  | c :: _ => c == ' ' || isRawBreak c
  | [] => false

/-- Whether a character comes next, and what is behind it passes a test. -/
def begins (mark : Char) (test : List Char → Bool) : List Char → Bool
  | c :: rest => c == mark && test rest
  | [] => false

/-- Whether three dashes or three dots come next, and then a blank or a line break. -/
def beginsMark (text : List Char) : Bool :=
  begins '-' (begins '-' (begins '-' breaksWord)) text ||
    begins '.' (begins '.' (begins '.' breaksWord)) text

/-- Whether a mark of a document stands at the beginning of a line of a text behind its
first. -/
def holdsMark : List Char → Bool
  | c :: rest => isRawBreak c && beginsMark rest || holdsMark rest
  | [] => false

/-! ## Escapes of compact text -/

/-- A character is escaped by a mark, or by its number, or not at all. -/
theorem escape_cases (c : Char) :
    (∃ mark, Json.escape c = ['\\', mark] ∧ shortEscape? mark = some c ∧ isBreak mark = false) ∨
      (∃ digits, Json.escape c = '\\' :: 'u' :: digits ∧ digits.length = 4 ∧
        hexNumber? digits = some c.toNat) ∨
      (Json.escape c = [c] ∧ 32 ≤ c.toNat ∧ c ≠ '"' ∧ c ≠ '\\') := by
  have numbers : ∀ code < 32, hexNumber?
      ['0', '0', Json.hexDigit (code / 16), Json.hexDigit code] = some code := by
    decide
  generalize same : Json.escape c = written
  unfold Json.escape at same
  split_ifs at same with quote backslash feed carriage tab backspace formFeed control <;>
    subst same
  · exact .inl ⟨'"', rfl, by rw [quote]; rfl, by decide⟩
  · exact .inl ⟨'\\', rfl, by rw [backslash]; rfl, by decide⟩
  · exact .inl ⟨'n', rfl, by rw [feed]; rfl, by decide⟩
  · exact .inl ⟨'r', rfl, by rw [carriage]; rfl, by decide⟩
  · exact .inl ⟨'t', rfl, by rw [tab]; rfl, by decide⟩
  · exact .inl ⟨'b', rfl, by rw [← c.ofNat_toNat, backspace]; rfl, by decide⟩
  · exact .inl ⟨'f', rfl, by rw [← c.ofNat_toNat, formFeed]; rfl, by decide⟩
  · exact .inr (.inl ⟨_, rfl, rfl, numbers _ control⟩)
  · exact .inr (.inr ⟨rfl, Nat.le_of_not_lt control, quote, backslash⟩)

theorem length_escape_pos (c : Char) : 0 < (Json.escape c).length := by
  rcases escape_cases c with ⟨_, written, -⟩ | ⟨_, written, -⟩ | ⟨written, -⟩ <;> simp [written]

theorem escape_of_isRawBreak {c : Char} (raw : isRawBreak c = true) : Json.escape c = [c] := by
  rcases isRawBreak_iff.mp raw with rfl | rfl | rfl <;> decide

theorem isBreak_eq_isRawBreak {c : Char} (printed : 32 ≤ c.toNat) :
    isBreak c = isRawBreak c := by
  have noFeed : (c == '\n') = false := beq_false_of_ne <| by
    rintro rfl
    exact absurd printed (by decide)
  have noCarriage : (c == '\r') = false := beq_false_of_ne <| by
    rintro rfl
    exact absurd printed (by decide)
  rw [isBreak, noFeed, noCarriage, isRawBreak, Bool.false_or, Bool.false_or]

/-- A character that stands for itself, and is neither a blank nor a line break. -/
theorem isWord_of_le {c : Char} (printed : 32 ≤ c.toNat) (notBlank : c ≠ ' ')
    (notBreak : isRawBreak c = false) : isWhite c = false ∧ isBreak c = false := by
  have noTab : c ≠ '\t' := by
    rintro rfl
    exact absurd printed (by decide)
  exact ⟨by simp [isWhite, notBlank, noTab], (isBreak_eq_isRawBreak printed).trans notBreak⟩

theorem startsWord_escape {c : Char} (notBlank : c ≠ ' ') (notBreak : isRawBreak c = false)
    (rest : List Char) : StartsWord (Json.escape c ++ rest) := by
  have escaped : isWhite '\\' = false ∧ isBreak '\\' = false := by decide
  rcases escape_cases c with ⟨mark, written, -⟩ | ⟨digits, written, -⟩ | ⟨written, printed, -⟩
  · rw [written]
    rintro other ⟨⟩
    exact escaped
  · rw [written]
    rintro other ⟨⟩
    exact escaped
  · rw [written]
    rintro other ⟨⟩
    exact isWord_of_le printed notBlank notBreak

/-! ## Marks of documents -/

/-- What compact text writes for a text between quotes, with the closing quote. -/
def quotedRest (text rest : List Char) : List Char :=
  text.flatMap Json.escape ++ '"' :: rest

theorem quotedRest_cons (c : Char) (text rest : List Char) :
    quotedRest (c :: text) rest = Json.escape c ++ quotedRest text rest := by
  rw [quotedRest, List.flatMap_cons, List.append_assoc, quotedRest]

/-- A word ends at the same places before and after a text is written. -/
theorem endsWord_quotedRest (text rest : List Char) :
    endsWord (quotedRest text rest) = breaksWord text := by
  cases text with
  | nil => rfl
  | cons c text =>
      rw [quotedRest_cons, breaksWord]
      by_cases blank : c = ' '
      · subst blank
        rfl
      cases raw : isRawBreak c with
      | true =>
          have lineBreak : isBreak c = true := by
            rcases isRawBreak_iff.mp raw with rfl | rfl | rfl <;> decide
          simp [escape_of_isRawBreak raw, endsWord, lineBreak]
      | false =>
          have starts := startsWord_escape blank raw (quotedRest text rest)
          cases written : Json.escape c ++ quotedRest text rest with
          | nil => rcases escape_cases c with ⟨mark, same, -⟩ | ⟨digits, same, -⟩ | ⟨same, -⟩ <;>
              simp [same] at written
          | cons first others =>
              obtain ⟨notWhite, notBreak⟩ := starts first (by rw [written]; rfl)
              simp [endsWord, notWhite, notBreak, blank]

/-- A test for a mark gives the same before and after a text is written. -/
theorem begins_quotedRest {mark : Char} (isMark : mark = '-' ∨ mark = '.')
    {test other : List Char → Bool} {rest : List Char}
    (same : ∀ text, test (quotedRest text rest) = other text) (text : List Char) :
    begins mark test (quotedRest text rest) = begins mark other text := by
  have plain : Json.escape mark = [mark] := by
    rcases isMark with rfl | rfl <;> decide
  have notQuote : ('"' == mark) = false := by
    rcases isMark with rfl | rfl <;> decide
  have notEscape : ('\\' == mark) = false := by
    rcases isMark with rfl | rfl <;> decide
  cases text with
  | nil => simp [quotedRest, begins, notQuote]
  | cons c text =>
      rw [quotedRest_cons]
      by_cases marked : c = mark
      · rw [marked, plain]
        simp [begins, same]
      · have unmarked : (c == mark) = false := beq_false_of_ne marked
        rcases escape_cases c with ⟨_, written, -⟩ | ⟨_, written, -⟩ | ⟨written, -⟩ <;>
          simp only [written, begins, List.cons_append, unmarked, notEscape, Bool.false_and]

theorem atDocumentMark_eq_begins (rest : List Char) (index line column : Nat) :
    (⟨rest, index, line, column⟩ : Cursor).atDocumentMark =
      (column == 0 && (begins '-' (begins '-' (begins '-' endsWord)) rest ||
        begins '.' (begins '.' (begins '.' endsWord)) rest)) := by
  unfold Cursor.atDocumentMark
  split
  next behind same =>
    obtain rfl : rest = '-' :: '-' :: '-' :: behind := same
    simp [begins]
  next behind same =>
    obtain rfl : rest = '.' :: '.' :: '.' :: behind := same
    simp [begins]
  next noDashes noDots =>
    have none : (begins '-' (begins '-' (begins '-' endsWord)) rest ||
        begins '.' (begins '.' (begins '.' endsWord)) rest) = false := by
      rcases rest with _ | ⟨first, _ | ⟨second, _ | ⟨third, rest⟩⟩⟩
      · rfl
      · simp [begins]
      · simp [begins]
      · simp only [begins, Bool.or_eq_false_iff, Bool.and_eq_false_iff, beq_eq_false_iff_ne]
        refine ⟨?_, ?_⟩
        · by_contra dashes
          simp only [not_or, not_not] at dashes
          obtain ⟨rfl, rfl, rfl, -⟩ := dashes
          exact noDashes rest rfl
        · by_contra dots
          simp only [not_or, not_not] at dots
          obtain ⟨rfl, rfl, rfl, -⟩ := dots
          exact noDots rest rfl
    rw [none]

/-- A mark of a document is one before and after a text is written. -/
theorem atDocumentMark_quotedRest (text rest : List Char) (index line column : Nat) :
    (⟨quotedRest text rest, index, line, column⟩ : Cursor).atDocumentMark =
      (column == 0 && beginsMark text) := by
  have same {mark : Char} (isMark : mark = '-' ∨ mark = '.') :
      begins mark (begins mark (begins mark endsWord)) (quotedRest text rest) =
        begins mark (begins mark (begins mark breaksWord)) text :=
    begins_quotedRest isMark (fun text => begins_quotedRest isMark (fun text =>
      begins_quotedRest isMark (fun text => endsWord_quotedRest text rest) text) text) text
  rw [atDocumentMark_eq_begins, same (.inl rfl), same (.inr rfl), beginsMark]

/-! ## Reading a text between quotes -/

section

variable {read rest : List Char} {gap : Gap} {fuel first second index line column : Nat}

/-- Reads a quoted text behind a part of a gap. -/
def gapTail? (first second : Nat) (read : List Char) (gap : Gap) (place : Cursor) :
    Option (List Char × Cursor) := do
  let (gap, place) ← Gap.read? 0 first gap place
  quotedTail? true second (gap.folded.reverse ++ read) place

theorem gapTail?_blank :
    gapTail? (first + 1) second read gap ⟨' ' :: rest, index, line, column⟩ =
      gapTail? first second read (gap.addBlank ' ') ⟨rest, index + 1, line, column + 1⟩ := by
  have white : isWhite ' ' = true := by decide
  simp [gapTail?, Gap.read?, white, Cursor.next]

theorem gapTail?_break {c : Char} (raw : isRawBreak c = true) :
    gapTail? (first + 1) second read gap ⟨c :: rest, index, line, column⟩ =
      gapTail? first second read (gap.addBreak (Cursor.breakCharacter [c]))
        ⟨rest, index + 1, line + 1, 0⟩ := by
  rcases isRawBreak_iff.mp raw with rfl | rfl | rfl <;> rfl

theorem gapTail?_word (starts : StartsWord rest) :
    gapTail? (first + 1) second read gap ⟨rest, index, line, column⟩ =
      quotedTail? true second (gap.folded.reverse ++ read) ⟨rest, index, line, column⟩ := by
  rw [gapTail?, Gap.read?_startsWord starts]
  rfl

/-- A gap of a quoted text begins with a blank or a line break. -/
theorem quotedTail?_gap {c : Char} (begun : (c == ' ' || isRawBreak c) = true) :
    quotedTail? true (fuel + 1) read ⟨c :: rest, index, line, column⟩ =
      gapTail? fuel fuel read .none ⟨c :: rest, index, line, column⟩ := by
  rw [Bool.or_eq_true, beq_iff_eq, isRawBreak_iff] at begun
  rcases begun with rfl | rfl | rfl | rfl <;> cases column <;> rfl

theorem quotedTail?_escapedCharacter {c : Char} (notBlank : c ≠ ' ')
    (notBreak : isRawBreak c = false)
    (noMark : (⟨Json.escape c ++ rest, index, line, column⟩ : Cursor).atDocumentMark = false) :
    quotedTail? true (fuel + 1) read ⟨Json.escape c ++ rest, index, line, column⟩ =
      quotedTail? true fuel (c :: read)
        ⟨rest, index + (Json.escape c).length, line, column + (Json.escape c).length⟩ := by
  rcases escape_cases c with ⟨mark, written, short, inLine⟩ | ⟨digits, written, length, number⟩ |
    ⟨written, printed, notQuote, notEscape⟩
  · rw [written]
    exact quotedTail?_escape inLine (escape?_short short rest _ line _)
  · rw [written]
    have marked : escapeLength? 'u' = some digits.length := by
      rw [length]
      rfl
    have reads := escape?_digits rfl marked number rest (index + 1) line (column + 1)
    refine (quotedTail?_escape (by decide) reads).trans ?_
    simp only [List.length_cons, Nat.add_assoc, Nat.add_comm 1]
  · rw [written] at noMark ⊢
    exact quotedTail?_raw noMark (isWord_of_le printed notBlank notBreak) notQuote
      fun _ => notEscape

/-- What is read of a text up to its closing quote: nothing where a mark of a document stands in
it, and else the folded text. -/
def foldedOutcome (gap : Gap) (read text rest : List Char) (index line column newColumn : Nat) :
    Option (List Char × Cursor) :=
  if (column == 0 && beginsMark text) || holdsMark text then none
  else
    some (read.reverse ++ foldedTail gap text,
      ⟨rest, index + ((text.flatMap Json.escape).length + 1), line + text.countP isRawBreak,
        newColumn⟩)

/-- Whether a text is read as folded where no part of a gap is read yet. -/
def ReadsFolded (text rest : List Char) : Prop :=
  ∀ read fuel index line column, text.length + 2 ≤ fuel → ∃ newColumn,
    quotedTail? true fuel read ⟨quotedRest text rest, index, line, column⟩ =
      foldedOutcome .none read text rest index line column newColumn

/-- Whether a text is read as folded behind every part of a gap. -/
def ReadsBehindGap (text rest : List Char) : Prop :=
  ∀ gap read first second index line column, text.length + 1 ≤ first → text.length + 2 ≤ second →
    ∃ newColumn, gapTail? first second read gap ⟨quotedRest text rest, index, line, column⟩ =
      foldedOutcome gap read text rest index line column newColumn

/-- A gap ends where a word begins. -/
theorem ReadsFolded.readsBehindGap {text : List Char} (reads : ReadsFolded text rest)
    (starts : StartsWord (quotedRest text rest))
    (stops : ∀ gap, foldedTail gap text = gap.folded ++ foldedTail .none text) :
    ReadsBehindGap text rest := by
  intro gap read first second index line column enough enoughMore
  obtain ⟨first, rfl⟩ := Nat.exists_eq_add_of_le' (Nat.le_of_add_left_le enough)
  obtain ⟨newColumn, same⟩ := reads (gap.folded.reverse ++ read) second index line column enoughMore
  refine ⟨newColumn, (gapTail?_word starts).trans (same.trans ?_)⟩
  simp only [foldedOutcome, List.reverse_append, List.reverse_reverse, List.append_assoc,
    stops gap]

theorem readsFolded_nil : ReadsFolded [] rest := by
  intro read fuel index line column enough
  obtain ⟨fuel, rfl⟩ := Nat.exists_eq_add_of_le' (Nat.le_of_add_left_le enough)
  refine ⟨column + 1, ?_⟩
  rw [quotedRest, List.flatMap_nil, List.nil_append, quotedTail?_doubleQuote]
  simp [foldedOutcome, beginsMark, begins, holdsMark, foldedTail, Gap.folded, Gap.none]

theorem index_flatMap_cons (c : Char) (text : List Char) :
    index + (((c :: text).flatMap Json.escape).length + 1) =
      index + (Json.escape c).length + ((text.flatMap Json.escape).length + 1) := by
  rw [List.flatMap_cons, List.length_append]
  omega

theorem foldedOutcome_blank (text : List Char) (newColumn : Nat) :
    foldedOutcome gap read (' ' :: text) rest index line column newColumn =
      foldedOutcome (gap.addBlank ' ') read text rest (index + 1) line (column + 1) newColumn := by
  have marks : ((column == 0 && beginsMark (' ' :: text)) || holdsMark (' ' :: text)) =
      ((column + 1 == 0 && beginsMark text) || holdsMark text) := by
    simp [beginsMark, begins, holdsMark, isRawBreak]
  have lines : (' ' :: text).countP isRawBreak = text.countP isRawBreak := by
    simp [isRawBreak]
  rw [foldedOutcome, marks, index_flatMap_cons, lines]
  rfl

/-- A line that begins behind a line break may begin with a mark. -/
theorem foldedOutcome_break {c : Char} (raw : isRawBreak c = true) (text : List Char)
    (newColumn : Nat) :
    foldedOutcome gap read (c :: text) rest index line column newColumn =
      foldedOutcome (gap.addBreak (Cursor.breakCharacter [c])) read text rest (index + 1)
        (line + 1) 0 newColumn := by
  obtain ⟨noMark, notBlank⟩ : beginsMark (c :: text) = false ∧ c ≠ ' ' := by
    rcases isRawBreak_iff.mp raw with rfl | rfl | rfl <;> exact ⟨rfl, by decide⟩
  have marks : ((column == 0 && beginsMark (c :: text)) || holdsMark (c :: text)) =
      (((0 : Nat) == 0 && beginsMark text) || holdsMark text) := by
    simp [noMark, holdsMark, raw]
  have lines : line + (c :: text).countP isRawBreak = line + 1 + text.countP isRawBreak := by
    rw [List.countP_cons_of_pos raw]
    omega
  rw [foldedOutcome, marks, index_flatMap_cons, lines, escape_of_isRawBreak raw, foldedTail,
    if_neg notBlank, if_pos raw]
  rfl

theorem foldedOutcome_word {c : Char} (notBlank : c ≠ ' ') (notBreak : isRawBreak c = false)
    {text : List Char} (noMark : (column == 0 && beginsMark (c :: text)) = false)
    (newColumn : Nat) :
    foldedOutcome .none read (c :: text) rest index line column newColumn =
      foldedOutcome .none (c :: read) text rest (index + (Json.escape c).length) line
        (column + (Json.escape c).length) newColumn := by
  have present := length_escape_pos c
  have later : (column + (Json.escape c).length == 0) = false := beq_false_of_ne (by omega)
  have marks : ((column == 0 && beginsMark (c :: text)) || holdsMark (c :: text)) =
      ((column + (Json.escape c).length == 0 && beginsMark text) || holdsMark text) := by
    simp [noMark, later, holdsMark, notBreak]
  have lines : (c :: text).countP isRawBreak = text.countP isRawBreak :=
    List.countP_cons_of_neg (by simp [notBreak])
  have tail : foldedTail .none (c :: text) = c :: foldedTail .none text := by
    simp [foldedTail, notBlank, notBreak, Gap.folded, Gap.none]
  rw [foldedOutcome, marks, index_flatMap_cons, lines, tail, foldedOutcome, List.reverse_cons,
    List.append_assoc, List.singleton_append]

/-! The induction is on the text.  What is in front of a text is either a part of a gap or
nothing that is still pending, and each of the two leads to one of them behind a character. -/

theorem gapTail?_cons {c : Char} {text : List Char} (begun : (c == ' ' || isRawBreak c) = true)
    (behind : ReadsBehindGap text rest) (gap : Gap) (read : List Char) (index line column : Nat)
    (enough : text.length + 1 ≤ first) (enoughMore : text.length + 2 ≤ second) :
    ∃ newColumn,
      gapTail? (first + 1) second read gap ⟨quotedRest (c :: text) rest, index, line, column⟩ =
        foldedOutcome gap read (c :: text) rest index line column newColumn := by
  by_cases blank : c = ' '
  · subst blank
    obtain ⟨newColumn, same⟩ := behind (gap.addBlank ' ') read first second (index + 1) line
      (column + 1) enough enoughMore
    exact ⟨newColumn, gapTail?_blank.trans (same.trans (foldedOutcome_blank text newColumn).symm)⟩
  · have raw : isRawBreak c = true := by simpa [blank] using begun
    obtain ⟨newColumn, same⟩ := behind (gap.addBreak (Cursor.breakCharacter [c])) read first
      second (index + 1) (line + 1) 0 enough enoughMore
    refine ⟨newColumn, ?_⟩
    rw [quotedRest_cons, escape_of_isRawBreak raw]
    exact (gapTail?_break raw).trans (same.trans (foldedOutcome_break raw text newColumn).symm)

theorem readsFolded_gap {c : Char} {text : List Char} (begun : (c == ' ' || isRawBreak c) = true)
    (behind : ReadsBehindGap text rest) : ReadsFolded (c :: text) rest := by
  intro read fuel index line column enough
  simp only [List.length_cons] at enough
  obtain ⟨fuel, rfl⟩ : ∃ less, fuel = less + 1 + 1 := ⟨fuel - 2, by omega⟩
  have escaped : Json.escape c = [c] := by
    rcases Bool.or_eq_true_iff.mp begun with blank | raw
    · rw [beq_iff_eq.mp blank]
      decide
    · exact escape_of_isRawBreak raw
  obtain ⟨newColumn, same⟩ := gapTail?_cons begun behind .none read index line column
    (show text.length + 1 ≤ fuel by omega) (show text.length + 2 ≤ fuel + 1 by omega)
  refine ⟨newColumn, Eq.trans ?_ same⟩
  rw [quotedRest_cons, escaped]
  exact quotedTail?_gap begun

theorem readsBehindGap_gap {c : Char} {text : List Char}
    (begun : (c == ' ' || isRawBreak c) = true) (behind : ReadsBehindGap text rest) :
    ReadsBehindGap (c :: text) rest := by
  intro gap read first second index line column enough enoughMore
  simp only [List.length_cons] at enough enoughMore
  obtain ⟨first, rfl⟩ := Nat.exists_eq_add_of_le' (Nat.le_of_add_left_le enough)
  exact gapTail?_cons begun behind gap read index line column (by omega) (by omega)

theorem readsFolded_word {c : Char} {text : List Char} (notBlank : c ≠ ' ')
    (notBreak : isRawBreak c = false) (behind : ReadsFolded text rest) :
    ReadsFolded (c :: text) rest := by
  intro read fuel index line column enough
  simp only [List.length_cons] at enough
  obtain ⟨fuel, rfl⟩ : ∃ less, fuel = less + 1 := ⟨fuel - 1, by omega⟩
  have atMark := atDocumentMark_quotedRest (c :: text) rest index line column
  cases marked : column == 0 && beginsMark (c :: text) with
  | true =>
      refine ⟨0, ?_⟩
      rw [marked] at atMark
      rw [foldedOutcome, marked, quotedTail?, atMark]
      rfl
  | false =>
      rw [marked, quotedRest_cons] at atMark
      obtain ⟨newColumn, same⟩ := behind (c :: read) fuel (index + (Json.escape c).length) line
        (column + (Json.escape c).length) (by omega)
      refine ⟨newColumn, ?_⟩
      rw [foldedOutcome_word notBlank notBreak marked, ← same, quotedRest_cons]
      exact quotedTail?_escapedCharacter notBlank notBreak atMark

theorem readsFolded (rest text : List Char) : ReadsFolded text rest ∧ ReadsBehindGap text rest := by
  induction text with
  | nil =>
      have starts : StartsWord (quotedRest [] rest) := by
        rintro c ⟨⟩
        decide
      refine ⟨readsFolded_nil, readsFolded_nil.readsBehindGap starts fun gap => ?_⟩
      exact (List.append_nil gap.folded).symm
  | cons c text ih =>
      cases begun : c == ' ' || isRawBreak c with
      | true => exact ⟨readsFolded_gap begun ih.2, readsBehindGap_gap begun ih.2⟩
      | false =>
          obtain ⟨notBlank, notBreak⟩ := Bool.or_eq_false_iff.mp begun
          have notBlank : c ≠ ' ' := by simpa using notBlank
          have reads := readsFolded_word notBlank notBreak ih.1
          have starts : StartsWord (quotedRest (c :: text) rest) := by
            rw [quotedRest_cons]
            exact startsWord_escape notBlank notBreak _
          refine ⟨reads, reads.readsBehindGap starts fun gap => ?_⟩
          simp [foldedTail, notBlank, notBreak, Gap.folded, Gap.none]

end

theorem length_le_flatMap_escape (text : List Char) :
    text.length ≤ (text.flatMap Json.escape).length := by
  induction text with
  | nil => exact Nat.le_refl 0
  | cons c text ih =>
      have present := length_escape_pos c
      rw [List.flatMap_cons, List.length_append, List.length_cons]
      omega

/-- A text that compact text writes is read as it is folded, unless a mark of a document stands
in it. -/
theorem quoted?_quote (text : String) (rest : List Char) (fuel index line column : Nat)
    (enough : (Json.quote text ++ rest).length < fuel) :
    ∃ newColumn, quoted? true fuel ⟨Json.quote text ++ rest, index, line, column⟩ =
      if holdsMark text.toList then none
      else
        some (folded text.toList, ⟨rest, index + (Json.quote text).length,
          line + text.toList.countP isRawBreak, newColumn⟩) := by
  have written : Json.quote text ++ rest = '"' :: quotedRest text.toList rest := by
    simp [Json.quote, quotedRest]
  have length : (Json.quote text).length = (text.toList.flatMap Json.escape).length + 2 := by
    rw [Json.quote, List.length_append, List.length_cons, List.length_singleton]
  have shorter := length_le_flatMap_escape text.toList
  rw [List.length_append, length] at enough
  obtain ⟨newColumn, same⟩ := (readsFolded rest text.toList).1 [] fuel (index + 1) line (column + 1)
    (by omega)
  refine ⟨newColumn, ?_⟩
  rw [written]
  refine same.trans ?_
  have behind : index + 1 + ((text.toList.flatMap Json.escape).length + 1) =
      index + (Json.quote text).length := by
    rw [length]
    omega
  rw [foldedOutcome, behind]
  rfl

/-! ## Texts that are read as themselves -/

/-- Whether a text holds no next line, and no blank beside a line break. -/
def keepsLines (text : List Char) : Bool :=
  !text.contains '\u0085' && !holdsPair (· == ' ') isRawBreak text &&
    !holdsPair isRawBreak (· == ' ') text

theorem holdsPair_append_cons {first second : Char → Bool} {c : Char} (notFirst : first c = false)
    (notSecond : second c = false) (front rest : List Char) :
    holdsPair first second (front ++ c :: rest) =
      (holdsPair first second front || holdsPair first second rest) := by
  have behind : holdsPair first second (c :: rest) = holdsPair first second rest := by
    cases rest <;> simp [holdsPair, notFirst]
  induction front with
  | nil => exact behind
  | cons a front ih =>
      cases front with
      | nil => simp [holdsPair, notSecond, behind]
      | cons b front =>
          simp only [List.cons_append] at ih
          simp only [List.cons_append, holdsPair, ih, Bool.or_assoc]

theorem holdsPair_eq_false {first second : Char → Bool} {text : List Char}
    (lacks : text.any first = false ∨ text.any second = false) :
    holdsPair first second text = false := by
  induction text with
  | nil => rfl
  | cons a text ih =>
      simp only [List.any_cons, Bool.or_eq_false_iff] at lacks
      have others := ih (lacks.imp And.right And.right)
      cases text with
      | nil => rfl
      | cons b text =>
          rw [holdsPair, others, Bool.or_false, Bool.and_eq_false_iff]
          exact lacks.imp And.left fun lacks => (Bool.or_eq_false_iff.mp lacks.2).1

/-- A text without line breaks keeps its only line. -/
theorem keepsLines_of_any_eq_false {text : List Char} (noBreak : text.any isRawBreak = false) :
    keepsLines text = true := by
  have noNextLine : text.contains '\u0085' = false := by
    rw [List.contains_eq_mem, decide_eq_false_iff_not]
    exact fun member => List.any_eq_false.mp noBreak _ member (by decide)
  rw [keepsLines, noNextLine, holdsPair_eq_false (.inr noBreak), holdsPair_eq_false (.inl noBreak)]
  rfl

theorem keepsLines_append_cons {c : Char} (notBlank : c ≠ ' ') (notBreak : isRawBreak c = false)
    (front rest : List Char) :
    keepsLines (front ++ c :: rest) = (keepsLines front && keepsLines rest) := by
  let isBlank (c : Char) : Bool := c == ' '
  have blank : isBlank c = false := beq_false_of_ne notBlank
  have nextLine : ('\u0085' == c) = false := beq_false_of_ne <| by
    rintro rfl
    exact absurd notBreak (by decide)
  have before : holdsPair isBlank isRawBreak (front ++ c :: rest) = _ :=
    holdsPair_append_cons blank notBreak front rest
  have behind : holdsPair isRawBreak isBlank (front ++ c :: rest) = _ :=
    holdsPair_append_cons notBreak blank front rest
  rw [keepsLines, before, behind, List.contains_append, List.contains_cons, nextLine,
    Bool.false_or]
  simp only [keepsLines, isBlank, Bool.not_or, Bool.and_assoc, Bool.and_left_comm]

/-- A gap of blanks, or of line breaks that are none of the next lines they may come from. -/
structure IsPureGap (gap : Gap) : Prop where
  blanks : ∀ c ∈ gap.blanks, c = ' '
  breaks : ∀ c ∈ gap.first ++ gap.others, c ≠ ' ' ∧ c ≠ '\u0085'

theorem isPureGap_none : IsPureGap .none :=
  ⟨by simp [Gap.none], by simp [Gap.none]⟩

theorem IsPureGap.addBreak {gap : Gap} (isPure : IsPureGap gap) (c : Char) :
    IsPureGap (gap.addBreak (Cursor.breakCharacter [c])) := by
  have added : Cursor.breakCharacter [c] ≠ ' ' ∧ Cursor.breakCharacter [c] ≠ '\u0085' := by
    unfold Cursor.breakCharacter
    split <;> exact ⟨by decide, by decide⟩
  unfold Gap.addBreak
  split_ifs
  · refine ⟨isPure.blanks, ?_⟩
    rw [← List.append_assoc, List.forall_mem_append, List.forall_mem_singleton]
    exact ⟨isPure.breaks, added⟩
  · exact ⟨by simp, by simpa using added⟩

theorem IsPureGap.addBlank {gap : Gap} (isPure : IsPureGap gap) : IsPureGap (gap.addBlank ' ') := by
  unfold Gap.addBlank
  split_ifs
  · exact isPure
  · refine ⟨?_, isPure.breaks⟩
    rw [List.forall_mem_append, List.forall_mem_singleton]
    exact ⟨isPure.blanks, rfl⟩

theorem IsPureGap.keepsLines_folded {gap : Gap} (isPure : IsPureGap gap) :
    keepsLines gap.folded = true := by
  have oneSort : (∀ c ∈ gap.folded, c = ' ') ∨ ∀ c ∈ gap.folded, c ≠ ' ' ∧ c ≠ '\u0085' := by
    unfold Gap.folded
    split_ifs
    · exact .inl (by simp)
    · exact .inr fun c member => isPure.breaks c (List.mem_append_right _ member)
    · exact .inr isPure.breaks
    · exact .inl isPure.blanks
  rcases oneSort with blanks | breaks
  · refine keepsLines_of_any_eq_false (List.any_eq_false.mpr fun c member => ?_)
    rw [blanks c member]
    decide
  · have noBlank : gap.folded.any (· == ' ') = false :=
      List.any_eq_false.mpr fun c member => by simpa using (breaks c member).1
    have noNextLine : gap.folded.contains '\u0085' = false := by
      rw [List.contains_eq_mem, decide_eq_false_iff_not]
      exact fun member => (breaks _ member).2 rfl
    rw [keepsLines, noNextLine, holdsPair_eq_false (.inl noBlank),
      holdsPair_eq_false (.inr noBlank)]
    rfl

theorem foldedTail_word {c : Char} (notBlank : c ≠ ' ') (notBreak : isRawBreak c = false)
    (gap : Gap) (text : List Char) :
    foldedTail gap (c :: text) = gap.folded ++ c :: foldedTail .none text := by
  simp [foldedTail, notBlank, notBreak]

/-- What is read of a text has nothing left to fold. -/
theorem keepsLines_foldedTail {gap : Gap} (isPure : IsPureGap gap) (text : List Char) :
    keepsLines (foldedTail gap text) = true := by
  induction text generalizing gap with
  | nil => exact isPure.keepsLines_folded
  | cons c text ih =>
      by_cases blank : c = ' '
      · subst blank
        exact ih isPure.addBlank
      cases raw : isRawBreak c with
      | true =>
          rw [foldedTail, if_neg blank, if_pos raw]
          exact ih (isPure.addBreak c)
      | false =>
          rw [foldedTail_word blank raw, keepsLines_append_cons blank raw,
            isPure.keepsLines_folded, ih isPureGap_none]
          rfl

/-- A pair that is nowhere in a text is not where two parts of the text meet. -/
theorem holdsPair_append {first second : Char → Bool} {front rest : List Char} {a b : Char}
    (lacks : holdsPair first second (front ++ rest) = false) (last : front.getLast? = some a)
    (next : rest.head? = some b) : first a = false ∨ second b = false := by
  induction front with
  | nil => cases last
  | cons c front ih =>
      cases front with
      | nil =>
          cases last
          obtain ⟨rest, rfl⟩ : ∃ others, rest = b :: others := by
            cases rest <;> cases next
            exact ⟨_, rfl⟩
          exact Bool.and_eq_false_iff.mp (Bool.or_eq_false_iff.mp lacks).1
      | cons d front => exact ih (Bool.or_eq_false_iff.mp lacks).2 last

/-- A gap that is read as it is written. -/
inductive IsKeptGap : List Char → Gap → Prop
  | blanks (count : Nat) : IsKeptGap (blanks count) ⟨blanks count, [], [], false⟩
  | breaks {c : Char} {others : List Char}
      (kept : ∀ other ∈ c :: others, isRawBreak other = true ∧ other ≠ '\u0085') :
      IsKeptGap (c :: others) ⟨[], [c], others, true⟩

namespace IsKeptGap

variable {pending : List Char} {gap : Gap}

theorem folded_eq (isKept : IsKeptGap pending gap) : gap.folded = pending := by
  cases isKept with
  | blanks count => rfl
  | @breaks c others kept =>
      have notFeed : c ≠ '\n' := by
        rintro rfl
        exact absurd (kept '\n' List.mem_cons_self).1 (by decide)
      simp [Gap.folded, notFeed]

/-- A blank does not come behind line breaks that are kept. -/
theorem addBlank (isKept : IsKeptGap pending gap)
    (apart : ∀ c ∈ pending.getLast?, isRawBreak c = false) :
    IsKeptGap (pending ++ [' ']) (gap.addBlank ' ') := by
  cases isKept with
  | blanks count =>
      have longer : Writer.blanks count ++ [' '] = Writer.blanks (count + 1) :=
        List.replicate_succ'.symm
      have added : Gap.addBlank ⟨Writer.blanks count, [], [], false⟩ ' ' =
          ⟨Writer.blanks count ++ [' '], [], [], false⟩ := rfl
      rw [added, longer]
      exact .blanks (count + 1)
  | @breaks c others kept =>
      have isBreak := (kept _ (List.getLast_mem (List.cons_ne_nil c others))).1
      have apart := apart _ (List.getLast?_eq_some_getLast (List.cons_ne_nil c others))
      rw [isBreak] at apart
      cases apart

/-- A line break does not come behind blanks that are kept. -/
theorem addBreak (isKept : IsKeptGap pending gap) {c : Char} (raw : isRawBreak c = true)
    (notNextLine : c ≠ '\u0085') (apart : ∀ other ∈ pending.getLast?, other ≠ ' ') :
    IsKeptGap (pending ++ [c]) (gap.addBreak (Cursor.breakCharacter [c])) := by
  have same : Cursor.breakCharacter [c] = c := by
    rcases isRawBreak_iff.mp raw with rfl | rfl | rfl
    · exact absurd rfl notNextLine
    · rfl
    · rfl
  rw [same]
  cases isKept with
  | blanks count =>
      cases count with
      | zero => exact .breaks (by simpa using ⟨raw, notNextLine⟩)
      | succ count =>
          have last : (Writer.blanks (count + 1)).getLast? = some ' ' := by
            simp [Writer.blanks, List.getLast?_replicate]
          exact absurd rfl (apart ' ' last)
  | @breaks first others kept =>
      have longer : ∀ other ∈ (first :: others) ++ [c],
          isRawBreak other = true ∧ other ≠ '\u0085' := by
        rw [List.forall_mem_append, List.forall_mem_singleton]
        exact ⟨kept, raw, notNextLine⟩
      exact .breaks longer

end IsKeptGap

theorem foldedTail_eq {pending : List Char} {gap : Gap} (isKept : IsKeptGap pending gap)
    (text : List Char) (keeps : keepsLines (pending ++ text) = true) :
    foldedTail gap text = pending ++ text := by
  induction text generalizing pending gap with
  | nil => rw [foldedTail, isKept.folded_eq, List.append_nil]
  | cons c text ih =>
      have split : pending ++ c :: text = (pending ++ [c]) ++ text := by simp
      have parts := keeps
      simp only [keepsLines, Bool.and_eq_true, Bool.not_eq_true'] at parts
      obtain ⟨⟨noNextLine, noBreak⟩, noBlank⟩ := parts
      by_cases blank : c = ' '
      · subst blank
        rw [split] at keeps ⊢
        refine ih (isKept.addBlank fun other last => ?_) keeps
        exact (holdsPair_append noBlank last rfl).resolve_right (by simp)
      cases raw : isRawBreak c with
      | true =>
          have notNextLine : c ≠ '\u0085' := by
            rintro rfl
            simp at noNextLine
          rw [foldedTail, if_neg blank, if_pos raw]
          rw [split] at keeps ⊢
          refine ih (isKept.addBreak raw notNextLine fun other last => ?_) keeps
          simpa [raw] using holdsPair_append noBreak last rfl
      | false =>
          have keepsRest : keepsLines text = true := by
            rw [keepsLines_append_cons blank raw, Bool.and_eq_true] at keeps
            exact keeps.2
          have others : foldedTail .none text = text := ih (.blanks 0) keepsRest
          rw [foldedTail_word blank raw, isKept.folded_eq, others]

/-- A text is read as itself if and only if it holds no next line, and no blank beside a line
break. -/
theorem folded_eq_self_iff (text : List Char) : folded text = text ↔ keepsLines text = true := by
  constructor
  · intro same
    rw [← same]
    exact keepsLines_foldedTail isPureGap_none text
  · exact foldedTail_eq (.blanks 0) text

end Lexeme

end DeployTarget.Yaml
