import DeployTarget.Proofs.PlainText
import Mathlib.Algebra.Ring.Nat

/-!
# Quoted texts

A text that is written between double quotes, or between single quotes where that is allowed,
is read as itself: escapes stand for their characters, a single quote that is written twice
is one, and the line breaks of a text between single quotes take back their indentation.
-/

namespace DeployTarget.Yaml

open Writer

/-! ## Line breaks -/

/-- Whether a character is a line break that may be written. -/
def IsLineBreak (c : Char) : Prop :=
  isBreak c = true ∧ isPrintable c = true

theorem isLineBreak_feed : IsLineBreak '\n' :=
  ⟨by decide, by decide⟩

theorem IsLineBreak.cases {c : Char} (lineBreak : IsLineBreak c) :
    c = '\n' ∨ c = '\u2028' ∨ c = '\u2029' := by
  obtain ⟨isBreak, printable⟩ := lineBreak
  simp only [Yaml.isBreak, Bool.or_eq_true, beq_iff_eq, or_assoc] at isBreak
  rcases isBreak with rfl | rfl | rfl | rfl | rfl
  · exact .inl rfl
  · exact absurd printable (by decide)
  · exact absurd printable (by decide)
  · exact .inr (.inl rfl)
  · exact .inr (.inr rfl)

theorem IsLineBreak.breakCharacter {c : Char} (lineBreak : IsLineBreak c) (rest : List Char) :
    Cursor.breakCharacter (c :: rest) = c := by
  rcases lineBreak.cases with rfl | rfl | rfl <;> rfl

theorem IsLineBreak.nextLine {c : Char} (lineBreak : IsLineBreak c) (rest : List Char)
    (index line column : Nat) :
    (⟨c :: rest, index, line, column⟩ : Cursor).nextLine = ⟨rest, index + 1, line + 1, 0⟩ := by
  rcases lineBreak.cases with rfl | rfl | rfl <;> rfl

theorem IsLineBreak.not_isWhite {c : Char} (lineBreak : IsLineBreak c) : isWhite c = false := by
  rcases lineBreak.cases with rfl | rfl | rfl <;> decide

theorem Gap.read?_breaks (indent : Int) (first others : List Char) (fuel : Nat) (rest : List Char) :
    ∀ (breaks : List Char) (index line : Nat), (∀ c ∈ breaks, IsLineBreak c) →
    Gap.read? indent (breaks.length + fuel) ⟨[], first, others, true⟩
        ⟨breaks ++ rest, index, line, 0⟩ =
      Gap.read? indent fuel ⟨[], first, others ++ breaks, true⟩
        ⟨rest, index + breaks.length, line + breaks.length, 0⟩ := by
  intro breaks
  induction breaks generalizing others with
  | nil => simp
  | cons c breaks ih =>
      intro index line all
      have lineBreak := all c List.mem_cons_self
      have step : Gap.read? indent (breaks.length + fuel + 1) ⟨[], first, others, true⟩
          ⟨c :: (breaks ++ rest), index, line, 0⟩ =
          Gap.read? indent (breaks.length + fuel) ⟨[], first, others ++ [c], true⟩
            ⟨breaks ++ rest, index + 1, line + 1, 0⟩ := by
        simp [Gap.read?, lineBreak.not_isWhite, lineBreak.1, lineBreak.breakCharacter,
          lineBreak.nextLine, Gap.addBreak]
      rw [List.length_cons, Nat.add_right_comm, List.cons_append, step,
        ih _ _ _ fun other member => all other (List.mem_cons_of_mem _ member),
        List.append_assoc, List.singleton_append]
      congr 2 <;> omega

namespace Lexeme

/-! ## Escapes -/

theorem hexValue?_hexDigit (digit : Nat) :
    Json.hexValue? (hexDigit digit) = some (digit % 16) := by
  have digits : ∀ value < 16, Json.hexValue? (Nat.digitChar value).toUpper = some value := by
    decide
  exact digits _ (Nat.mod_lt _ (by decide))

theorem length_hexDigits (length number : Nat) : (hexDigits length number).length = length := by
  simp [hexDigits]

theorem hexDigits_succ (length number : Nat) :
    hexDigits (length + 1) number =
      hexDigit (number >>> (4 * length)) :: hexDigits length number := by
  simp [hexDigits, List.range_succ]

/-- The last digits of a number stand for the number up to a multiple. -/
theorem hexNumber?_hexDigits (length number : Nat) :
    hexNumber? (hexDigits length number) = some (number % 16 ^ length) := by
  have folds (value : Nat) : (hexDigits length number).foldlM
      (fun value c => (Json.hexValue? c).map (16 * value + ·)) value =
      some (16 ^ length * value + number % 16 ^ length) := by
    induction length generalizing value with
    | zero => simp [hexDigits, Nat.mod_one]
    | succ length ih =>
        have shifted : number >>> (4 * length) = number / 16 ^ length := by
          rw [Nat.shiftRight_eq_div_pow, Nat.pow_mul]
        rw [hexDigits_succ, List.foldlM_cons, hexValue?_hexDigit, Option.map_some,
          Option.bind_eq_bind, Option.bind_some, ih, shifted, Nat.mod_pow_succ, Nat.pow_succ]
        rw [Nat.mul_add, ← Nat.mul_assoc, Nat.add_assoc, Nat.add_comm (number % 16 ^ length)]
  simpa [hexNumber?] using folds 0

theorem scalar?_toNat (c : Char) : Json.scalar? c.toNat = some c := by
  have valid : c.toNat.isValidChar := c.valid
  rw [Json.scalar?, dif_pos valid]
  rfl

theorem shortEscape?_of_eq_some {c mark : Char} (escape : Writer.shortEscape? c = some mark) :
    shortEscape? mark = some c ∧ isBreak mark = false := by
  unfold Writer.shortEscape? at escape
  split at escape
  case h_15 => cases escape
  all_goals
    next code =>
      rw [← Char.ofNat_toNat c, code]
      cases escape
      decide

/-- What has no short escape is neither a line break nor a mark between double quotes. -/
theorem not_isBreak_of_shortEscape?_eq_none {c : Char} (none : Writer.shortEscape? c = none) :
    isBreak c = false ∧ c ≠ '"' ∧ c ≠ '\\' := by
  refine ⟨?_, ?_, ?_⟩
  · by_contra isBreak
    simp only [Yaml.isBreak, Bool.not_eq_false, Bool.or_eq_true, beq_iff_eq, or_assoc] at isBreak
    rcases isBreak with rfl | rfl | rfl | rfl | rfl <;> cases none
  · rintro rfl
    cases none
  · rintro rfl
    cases none

theorem escape?_short {c mark : Char} (short : shortEscape? mark = some c) (rest : List Char)
    (index line column : Nat) :
    escape? ⟨mark :: rest, index, line, column⟩ =
      some (c, ⟨rest, index + 1, line, column + 1⟩) := by
  simp [escape?, Cursor.head?, short, Cursor.next]

theorem escape?_digits {c mark : Char} {digits : List Char} (long : shortEscape? mark = none)
    (marked : escapeLength? mark = some digits.length)
    (number : hexNumber? digits = some c.toNat) (rest : List Char) (index line column : Nat) :
    escape? ⟨mark :: (digits ++ rest), index, line, column⟩ =
      some (c, ⟨rest, index + 1 + digits.length, line, column + 1 + digits.length⟩) := by
  simp [escape?, Cursor.head?, long, marked, Cursor.next, number, scalar?_toNat, Cursor.skip]

theorem escape?_long {c mark : Char} {length : Nat} (long : shortEscape? mark = none)
    (marked : escapeLength? mark = some length) (bounded : c.toNat < 16 ^ length)
    (rest : List Char) (index line column : Nat) :
    escape? ⟨mark :: (hexDigits length c.toNat ++ rest), index, line, column⟩ =
      some (c, ⟨rest, index + 1 + length, line, column + 1 + length⟩) := by
  have count := length_hexDigits length c.toNat
  have number : hexNumber? (hexDigits length c.toNat) = some c.toNat := by
    rw [hexNumber?_hexDigits, Nat.mod_eq_of_lt bounded]
  have read := escape?_digits long (count.symm ▸ marked) number rest index line column
  rwa [count] at read

/-! ## Double quotes -/

section

variable {double : Bool} {read rest : List Char} {fuel index line column : Nat}

theorem quotedTail?_escape {c mark : Char} {place : Cursor} (notBreak : isBreak mark = false)
    (escaped : escape? ⟨mark :: rest, index + 1, line, column + 1⟩ = some (c, place)) :
    quotedTail? true (fuel + 1) read ⟨'\\' :: mark :: rest, index, line, column⟩ =
      quotedTail? true fuel (c :: read) place := by
  have word : (isWhite '\\' || Yaml.isBreak '\\') = false := by decide
  simp [quotedTail?, Cursor.atDocumentMark, word, Cursor.next, escaped, notBreak]

theorem quotedTail?_long {c mark : Char} {length : Nat} (long : shortEscape? mark = none)
    (marked : escapeLength? mark = some length) (bounded : c.toNat < 16 ^ length)
    (notBreak : isBreak mark = false) :
    quotedTail? true (fuel + 1) read
        ⟨'\\' :: mark :: (hexDigits length c.toNat ++ rest), index, line, column⟩ =
      quotedTail? true fuel (c :: read)
        ⟨rest, index + (length + 2), line, column + (length + 2)⟩ := by
  rw [quotedTail?_escape notBreak (escape?_long long marked bounded rest _ line _)]
  congr 2 <;> omega

theorem quotedTail?_raw {c : Char}
    (noMark : (⟨c :: rest, index, line, column⟩ : Cursor).atDocumentMark = false)
    (word : isWhite c = false ∧ isBreak c = false) (noQuote : c ≠ if double then '"' else '\'')
    (noEscape : double = true → c ≠ '\\') :
    quotedTail? double (fuel + 1) read ⟨c :: rest, index, line, column⟩ =
      quotedTail? double fuel (c :: read) ⟨rest, index + 1, line, column + 1⟩ := by
  cases double <;> simp_all [quotedTail?, Cursor.next]

theorem quotedTail?_character {c : Char} (positive : 0 < column) (notBlank : c ≠ ' ') :
    quotedTail? true (fuel + 1) read
        ⟨doubleQuotedCharacter c ++ rest, index, line, column⟩ =
      quotedTail? true fuel (c :: read)
        ⟨rest, index + (doubleQuotedCharacter c).length, line,
          column + (doubleQuotedCharacter c).length⟩ := by
  have bound : c.toNat < 16 ^ 8 := c.val.toNat_lt
  unfold doubleQuotedCharacter
  split
  next mark escape =>
    obtain ⟨short, notBreak⟩ := shortEscape?_of_eq_some escape
    exact quotedTail?_escape notBreak (escape?_short short rest _ line _)
  next none =>
    obtain ⟨notBreak, notQuote, notEscape⟩ := not_isBreak_of_shortEscape?_eq_none none
    split_ifs with printable byte unit
    · have word : isWhite c = false := by
        rw [isWhite_eq_of_isPrintable printable]
        simpa using notBlank
      exact quotedTail?_raw (Cursor.atDocumentMark_of_pos positive) ⟨word, notBreak⟩ notQuote
        fun _ => notEscape
    · exact quotedTail?_long rfl rfl (by omega) rfl
    · exact quotedTail?_long rfl rfl (by omega) rfl
    · exact quotedTail?_long rfl rfl bound rfl

theorem length_doubleQuotedCharacter_pos (c : Char) : 0 < (doubleQuotedCharacter c).length := by
  unfold doubleQuotedCharacter
  split
  next => exact Nat.succ_pos _
  next => split_ifs <;> exact Nat.succ_pos _

theorem startsWord_doubleQuotedCharacter {c : Char} (notBlank : c ≠ ' ') (rest : List Char) :
    StartsWord (doubleQuotedCharacter c ++ rest) := by
  have escape : isWhite '\\' = false ∧ isBreak '\\' = false := by decide
  unfold doubleQuotedCharacter
  split
  next => simpa [StartsWord] using escape
  next none =>
    split_ifs with printable
    · have word : isWhite c = false := by
        rw [isWhite_eq_of_isPrintable printable]
        simpa using notBlank
      simpa [StartsWord] using ⟨word, (not_isBreak_of_shortEscape?_eq_none none).1⟩
    all_goals simpa [StartsWord] using escape

/-- The blanks in front of a word belong to a quoted text. -/
theorem quotedTail?_blanks (double : Bool) (read : List Char) (index line : Nat) {count : Nat}
    (positive : 0 < column) (starts : StartsWord rest)
    (enough : count + rest.length + 1 < fuel) :
    ∃ less, rest.length + 1 < less ∧
      quotedTail? double fuel read ⟨blanks count ++ rest, index, line, column⟩ =
        quotedTail? double less (blanks count ++ read)
          ⟨rest, index + count, line, column + count⟩ := by
  cases count with
  | zero => exact ⟨fuel, by omega, rfl⟩
  | succ count =>
      obtain ⟨fuel, rfl⟩ : ∃ less, fuel = count + 1 + (less + 1) + 1 :=
        ⟨fuel - count - 3, by omega⟩
      have gap : Gap.read? 0 (count + 1 + (fuel + 1)) .none
          ⟨blanks (count + 1) ++ rest, index, line, column⟩ =
          some (⟨blanks (count + 1), [], [], false⟩,
            ⟨rest, index + (count + 1), line, column + (count + 1)⟩) :=
        (Gap.read?_blanks 0 [] (count + 1) (fuel + 1) rest index line column).trans
          (Gap.read?_startsWord starts 0 _ fuel _ line _)
      have white : (isWhite ' ' || isBreak ' ') = true := by decide
      refine ⟨count + 1 + (fuel + 1), by omega, ?_⟩
      rw [show blanks (count + 1) ++ rest = ' ' :: (blanks count ++ rest) from rfl] at gap ⊢
      rw [quotedTail?]
      simp only [Cursor.atDocumentMark_of_pos positive, Bool.false_eq_true, if_false, white,
        if_true, gap, Option.bind_eq_bind, Option.bind_some, Gap.folded]
      rw [show (blanks (count + 1)).reverse = blanks (count + 1) from List.reverse_replicate]

theorem quotedTail?_doubleQuote :
    quotedTail? true (fuel + 1) read ⟨'"' :: rest, index, line, column⟩ =
      some (read.reverse, ⟨rest, index + 1, line, column + 1⟩) := by
  have word : (isWhite '"' || isBreak '"') = false := by decide
  simp [quotedTail?, Cursor.atDocumentMark, word, Cursor.next]

theorem quotedTail?_doubleQuoted (text : List Char) (rest : List Char) (line : Nat) :
    ∀ (count : Nat) (read : List Char) (fuel index column : Nat), 0 < column →
      count + (text.flatMap doubleQuotedCharacter ++ '"' :: rest).length + 1 < fuel →
      quotedTail? true fuel read
          ⟨blanks count ++ (text.flatMap doubleQuotedCharacter ++ '"' :: rest), index, line,
            column⟩ =
        some (read.reverse ++ blanks count ++ text,
          ⟨rest, index + (count + (text.flatMap doubleQuotedCharacter).length + 1), line,
            column + (count + (text.flatMap doubleQuotedCharacter).length + 1)⟩) := by
  induction text with
  | nil =>
      intro count read fuel index column positive enough
      have starts : StartsWord ('"' :: rest) := by
        rintro c ⟨⟩
        decide
      obtain ⟨less, enough, behind⟩ :=
        quotedTail?_blanks true read index line positive starts enough
      obtain ⟨less, rfl⟩ := Nat.exists_eq_add_of_le' (Nat.one_le_of_lt enough)
      refine (behind.trans (quotedTail?_doubleQuote)).trans ?_
      simp only [List.reverse_append, blanks, List.reverse_replicate, List.append_nil,
        List.flatMap_nil, List.length_nil]
      rfl
  | cons c text ih =>
      intro count read fuel index column positive enough
      by_cases blank : c = ' '
      · subst blank
        have written : (' ' :: text).flatMap doubleQuotedCharacter =
            ' ' :: text.flatMap doubleQuotedCharacter := rfl
        rw [written] at enough ⊢
        rw [List.cons_append, blanks_append_cons, ih (count + 1) read fuel index column positive
          (by simp only [List.cons_append, List.length_cons] at enough ⊢; omega),
          List.append_assoc, ← blanks_append_cons, ← List.append_assoc, List.length_cons,
          Nat.add_right_comm count]
        rfl
      · rw [List.flatMap_cons, List.append_assoc] at enough ⊢
        obtain ⟨less, enough, behind⟩ := quotedTail?_blanks true read index line positive
          (startsWord_doubleQuotedCharacter blank _) enough
        obtain ⟨less, rfl⟩ := Nat.exists_eq_add_of_le' (Nat.one_le_of_lt enough)
        have present := length_doubleQuotedCharacter_pos c
        rw [List.length_append] at enough
        refine (behind.trans (quotedTail?_character (by omega) blank)).trans ?_
        refine (ih 0 _ less _ _ (by omega) (by omega)).trans ?_
        simp only [List.reverse_cons, List.reverse_append, blanks, List.reverse_replicate,
          List.append_assoc, List.singleton_append, List.replicate_zero, List.length_append]
        congr 3 <;> omega

/-! ## Single quotes -/

theorem quotedTail?_singleQuote (positive : 0 < column) (single : rest.head? ≠ some '\'') :
    quotedTail? false (fuel + 1) read ⟨'\'' :: rest, index, line, column⟩ =
      some (read.reverse, ⟨rest, index + 1, line, column + 1⟩) := by
  have word : (isWhite '\'' || isBreak '\'') = false := by decide
  simp [quotedTail?, Cursor.atDocumentMark_of_pos positive, word, Cursor.next, single]

/-- What is written for a character between single quotes. -/
def singleQuotedCharacter (c : Char) : List Char :=
  if c = '\'' then ['\'', '\''] else [c]

theorem quotedTail?_singleQuotedCharacter {c : Char} (positive : 0 < column)
    (word : isWhite c = false ∧ isBreak c = false) :
    quotedTail? false (fuel + 1) read ⟨singleQuotedCharacter c ++ rest, index, line, column⟩ =
      quotedTail? false fuel (c :: read)
        ⟨rest, index + (singleQuotedCharacter c).length, line,
          column + (singleQuotedCharacter c).length⟩ := by
  unfold singleQuotedCharacter
  split_ifs with isQuote
  · subst isQuote
    simp [quotedTail?, Cursor.atDocumentMark_of_pos positive, word, Cursor.skip]
  · exact quotedTail?_raw (Cursor.atDocumentMark_of_pos positive) word isQuote Bool.noConfusion

theorem length_singleQuotedCharacter_pos (c : Char) : 0 < (singleQuotedCharacter c).length := by
  unfold singleQuotedCharacter
  split_ifs <;> exact Nat.succ_pos _

theorem startsWord_singleQuotedCharacter {c : Char} (word : isWhite c = false ∧ isBreak c = false)
    (rest : List Char) : StartsWord (singleQuotedCharacter c ++ rest) := by
  unfold singleQuotedCharacter
  split_ifs with isQuote
  · subst isQuote
    simpa [StartsWord] using word
  · simpa [StartsWord] using word

/-- What stands between the words of a text in single quotes, with the character at its end:
blanks, or line breaks other than line feeds. -/
inductive IsPending (before : Char) : Bool → List Char → Prop
  | blanks (count : Nat) (blank : 0 < count → before = ' ') : IsPending before false (blanks count)
  | breaks (first : Char) (others : List Char) (ending : isBreak before = true)
      (all : ∀ c ∈ first :: others, IsLineBreak c ∧ c ≠ '\n') :
      IsPending before true (first :: others)

/-- No blank stands in front of a line break, so only breaks do. -/
theorem IsPending.addBreak {before c : Char} {afterBreak : Bool} {pending : List Char}
    (isPending : IsPending before afterBreak pending)
    (noBlank : (before == ' ' && isBreak c) = false) (lineBreak : IsLineBreak c)
    (notFeed : c ≠ '\n') : IsPending c true (pending ++ [c]) := by
  have single : ∀ other ∈ [c], IsLineBreak other ∧ other ≠ '\n' := by
    simpa using ⟨lineBreak, notFeed⟩
  cases isPending with
  | blanks count blank =>
      cases count with
      | zero => exact .breaks c [] lineBreak.1 single
      | succ count =>
          rw [blank (Nat.succ_pos count), lineBreak.1] at noBlank
          cases noBlank
  | breaks first others ending all =>
      exact .breaks first (others ++ [c]) lineBreak.1 fun other member =>
        (List.mem_append.mp member).elim (all other) (single other)

/-- No line break stands in front of a blank, so only blanks do. -/
theorem IsPending.addBlank {before : Char} {afterBreak : Bool} {pending : List Char}
    (isPending : IsPending before afterBreak pending)
    (noBreak : (isBreak before && ' ' == ' ') = false) :
    afterBreak = false ∧ IsPending ' ' false (pending ++ [' ']) := by
  cases isPending with
  | blanks count blank =>
      refine ⟨rfl, ?_⟩
      rw [blanks_append_cons count [], List.append_nil]
      exact .blanks (count + 1) fun _ => rfl
  | breaks first others ending all =>
      rw [ending] at noBreak
      cases noBreak

/-- The indentation of a word behind a line break. -/
def indentation (indent : Nat) (afterBreak : Bool) : List Char :=
  if afterBreak then blanks indent else []

/-- The line breaks in front of a word belong to a quoted text, its indentation does not. -/
theorem quotedTail?_breaks {first : Char} {others : List Char} (indent : Nat)
    (all : ∀ c ∈ first :: others, IsLineBreak c ∧ c ≠ '\n') (starts : StartsWord rest) :
    quotedTail? double (others.length + (indent + (fuel + 1)) + 1 + 1) read
        ⟨first :: (others ++ (blanks indent ++ rest)), index, line, column⟩ =
      quotedTail? double (others.length + (indent + (fuel + 1)) + 1)
        ((first :: others).reverse ++ read)
        ⟨rest, index + (1 + others.length + indent), line + (1 + others.length), indent⟩ := by
  obtain ⟨lineBreak, notFeed⟩ := all first List.mem_cons_self
  have noMark : (⟨first :: (others ++ (blanks indent ++ rest)), index, line, column⟩ :
      Cursor).atDocumentMark = false := by
    rcases lineBreak.cases with rfl | rfl | rfl <;> simp [Cursor.atDocumentMark]
  have gap : Gap.read? 0 (others.length + (indent + (fuel + 1)) + 1) .none
      ⟨first :: (others ++ (blanks indent ++ rest)), index, line, column⟩ =
      some (⟨[], [first], others, true⟩,
        ⟨rest, index + (1 + others.length + indent), line + (1 + others.length), indent⟩) := by
    have step : Gap.read? 0 (others.length + (indent + (fuel + 1)) + 1) .none
        ⟨first :: (others ++ (blanks indent ++ rest)), index, line, column⟩ =
        Gap.read? 0 (others.length + (indent + (fuel + 1))) ⟨[], [first], [], true⟩
          ⟨others ++ (blanks indent ++ rest), index + 1, line + 1, 0⟩ := by
      simp [Gap.read?, lineBreak.not_isWhite, lineBreak.1, lineBreak.breakCharacter,
        lineBreak.nextLine, Gap.addBreak, Gap.none]
    rw [step, Gap.read?_breaks _ _ _ _ _ _ _ _ fun c member =>
        (all c (List.mem_cons_of_mem _ member)).1, Gap.read?_indentation _ _ rfl,
      Gap.read?_startsWord starts]
    simp only [List.nil_append, Nat.zero_add]
    congr 3 <;> omega
  rw [quotedTail?]
  simp only [noMark, Bool.false_eq_true, if_false, lineBreak.not_isWhite, lineBreak.1, Bool.or_true,
    if_true, gap, Option.bind_eq_bind, Option.bind_some, Gap.folded]
  simp [notFeed]

/-- What is pending in front of a word belongs to a text in single quotes. -/
theorem quotedTail?_isPending (double : Bool) (read : List Char) (index line : Nat) {before : Char}
    {afterBreak : Bool} {pending : List Char} {indent : Nat}
    (isPending : IsPending before afterBreak pending) (positive : 0 < column)
    (indented : 0 < indent) (starts : StartsWord rest)
    (enough : (pending ++ (indentation indent afterBreak ++ rest)).length + 1 < fuel) :
    ∃ less place, rest.length + 1 < less ∧ 0 < place.column ∧ line ≤ place.line ∧
      place.rest = rest ∧
      (afterBreak = false →
        place = ⟨rest, index + pending.length, line, column + pending.length⟩) ∧
      quotedTail? double fuel read
          ⟨pending ++ (indentation indent afterBreak ++ rest), index, line, column⟩ =
        quotedTail? double less (pending.reverse ++ read) place := by
  cases isPending with
  | blanks count blank =>
      obtain ⟨less, enough, behind⟩ := quotedTail?_blanks double read index line positive
        starts (by simpa [indentation, length_blanks, Nat.add_assoc] using enough)
      exact ⟨less, _, enough, Nat.lt_add_right _ positive, Nat.le_refl _, rfl,
        fun _ => by rw [length_blanks], by rw [blanks, List.reverse_replicate]; exact behind⟩
  | breaks first others ending all =>
      simp only [indentation, if_true, List.length_append, List.length_cons,
        length_blanks] at enough
      obtain ⟨fuel, rfl⟩ : ∃ less, fuel = others.length + (indent + (less + 1)) + 1 + 1 :=
        ⟨fuel - others.length - indent - 3, by omega⟩
      exact ⟨_, _, by omega, indented, Nat.le_add_right _ _, rfl, Bool.noConfusion,
        quotedTail?_breaks indent all starts⟩

/-- Whether a text between single quotes is read up to what is behind its quote, whatever is
pending in front of it. -/
def ReadsSingleQuoted (indent : Nat) (rest text : List Char) : Prop :=
  ∀ (before : Char) (afterBreak : Bool) (pending read : List Char) (fuel index line column : Nat),
    IsPending before afterBreak pending → holdsPair (· == ' ') isBreak (before :: text) = false →
    holdsPair isBreak (· == ' ') (before :: text) = false → 0 < column →
    (pending ++ (singleQuotedTail indent afterBreak text ++ rest)).length + 1 < fuel →
    ∃ place : Cursor, place.rest = rest ∧ line ≤ place.line ∧
      (afterBreak = false → text.any isBreak = false →
        place = ⟨rest, index + (pending ++ singleQuotedTail indent false text).length, line,
          column + (pending ++ singleQuotedTail indent false text).length⟩) ∧
      quotedTail? false fuel read
          ⟨pending ++ (singleQuotedTail indent afterBreak text ++ rest), index, line, column⟩ =
        some (read.reverse ++ pending ++ text, place)

theorem readsSingleQuoted_nil {indent : Nat} (indented : 0 < indent)
    (single : rest.head? ≠ some '\'') : ReadsSingleQuoted indent rest [] := by
  intro before afterBreak pending read fuel index line column isPending _ _ positive enough
  have starts : StartsWord ('\'' :: rest) := by
    rintro c ⟨⟩
    decide
  have written : singleQuotedTail indent afterBreak [] ++ rest =
      indentation indent afterBreak ++ '\'' :: rest := by
    simp [singleQuotedTail, indentation]
  rw [written] at enough ⊢
  obtain ⟨less, ⟨_, newIndex, newLine, newColumn⟩, enough, newPositive, ordered, rfl, sameLine,
    behind⟩ := quotedTail?_isPending false read index line isPending positive indented starts enough
  obtain ⟨less, rfl⟩ := Nat.exists_eq_add_of_le' (Nat.one_le_of_lt enough)
  refine ⟨⟨rest, newIndex + 1, newLine, newColumn + 1⟩, rfl, ordered, fun onLine _ => ?_,
    behind.trans ((quotedTail?_singleQuote newPositive single).trans (by simp))⟩
  cases sameLine onLine
  simp [singleQuotedTail, Nat.add_assoc]

section

variable {indent : Nat} {c : Char} {text : List Char} (reads : ReadsSingleQuoted indent rest text)
include reads

/-- A line break is pending in front of the next word. -/
theorem readsSingleQuoted_break (lineBreak : IsLineBreak c) (notFeed : c ≠ '\n') :
    ReadsSingleQuoted indent rest (c :: text) := by
  intro before afterBreak pending read fuel index line column isPending noBreak noBlank positive
    enough
  simp only [holdsPair, Bool.or_eq_false_iff] at noBreak noBlank
  have written : pending ++ (singleQuotedTail indent afterBreak (c :: text) ++ rest) =
      (pending ++ [c]) ++ (singleQuotedTail indent true text ++ rest) := by
    simp [singleQuotedTail, lineBreak.1]
  rw [written] at enough ⊢
  obtain ⟨place, atRest, ordered, -, behind⟩ :=
    reads c true (pending ++ [c]) read fuel index line column
      (isPending.addBreak noBreak.1 lineBreak notFeed) noBreak.2 noBlank.2 positive enough
  refine ⟨place, atRest, ordered, fun _ noBreaks => ?_, by simpa using behind⟩
  simp [lineBreak.1] at noBreaks

theorem readsSingleQuoted_blank : ReadsSingleQuoted indent rest (' ' :: text) := by
  intro before afterBreak pending read fuel index line column isPending noBreak noBlank positive
    enough
  simp only [holdsPair, Bool.or_eq_false_iff] at noBreak noBlank
  obtain ⟨rfl, more⟩ := isPending.addBlank noBlank.1
  have noBreakBlank : isBreak ' ' = false := by decide
  have whole : pending ++ singleQuotedTail indent false (' ' :: text) =
      (pending ++ [' ']) ++ singleQuotedTail indent false text := by
    simp [singleQuotedTail, noBreakBlank]
  rw [← List.append_assoc, whole, List.append_assoc (pending ++ [' '])] at enough ⊢
  obtain ⟨place, atRest, ordered, sameLine, behind⟩ :=
    reads ' ' false (pending ++ [' ']) read fuel index line column more noBreak.2 noBlank.2 positive
      enough
  refine ⟨place, atRest, ordered, fun onLine noBreaks => sameLine onLine ?_, by simpa using behind⟩
  simpa [noBreakBlank] using noBreaks

/-- A character of a word comes behind what is pending, and nothing is pending behind it. -/
theorem readsSingleQuoted_word (indented : 0 < indent)
    (word : isWhite c = false ∧ isBreak c = false) :
    ReadsSingleQuoted indent rest (c :: text) := by
  intro before afterBreak pending read fuel index line column isPending noBreak noBlank positive
    enough
  simp only [holdsPair, Bool.or_eq_false_iff] at noBreak noBlank
  have written (afterBreak : Bool) : singleQuotedTail indent afterBreak (c :: text) =
      indentation indent afterBreak ++
        (singleQuotedCharacter c ++ singleQuotedTail indent false text) := by
    simp [singleQuotedTail, word.2, indentation, singleQuotedCharacter]
  have whole : pending ++ (singleQuotedTail indent afterBreak (c :: text) ++ rest) =
      pending ++ (indentation indent afterBreak ++
        (singleQuotedCharacter c ++ (singleQuotedTail indent false text ++ rest))) := by
    simp [written]
  rw [whole] at enough ⊢
  obtain ⟨less, ⟨_, newIndex, newLine, newColumn⟩, enough, newPositive, ordered, rfl, sameLine,
    behind⟩ := quotedTail?_isPending false read index line isPending positive indented
      (startsWord_singleQuotedCharacter word _) enough
  obtain ⟨less, rfl⟩ := Nat.exists_eq_add_of_le' (Nat.one_le_of_lt enough)
  have present := length_singleQuotedCharacter_pos c
  rw [List.length_append] at enough
  obtain ⟨place, atRest, later, placed, read⟩ := reads c false (blanks 0)
    (c :: (pending.reverse ++ read)) less (newIndex + (singleQuotedCharacter c).length) newLine
    (newColumn + (singleQuotedCharacter c).length) (.blanks 0 (by simp)) noBreak.2 noBlank.2
    (by omega) (by simp only [blanks, List.replicate_zero, List.nil_append]; omega)
  refine ⟨place, atRest, Nat.le_trans ordered later, fun onLine noBreaks => ?_, ?_⟩
  · cases sameLine onLine
    rw [placed rfl (by simpa [word.2] using noBreaks)]
    simp [written, indentation, blanks, Nat.add_assoc]
  · rw [behind, quotedTail?_singleQuotedCharacter newPositive word]
    refine read.trans ?_
    simp [blanks]

end

theorem readsSingleQuoted {indent : Nat} (indented : 0 < indent) (single : rest.head? ≠ some '\'')
    (text : List Char) (allowed : ∀ c ∈ text, isPrintable c = true ∧ c ≠ '\n') :
    ReadsSingleQuoted indent rest text := by
  induction text with
  | nil => exact readsSingleQuoted_nil indented single
  | cons c text ih =>
      obtain ⟨⟨printable, notFeed⟩, allowedText⟩ := List.forall_mem_cons.mp allowed
      have reads := ih allowedText
      by_cases lineBreak : isBreak c = true
      · exact readsSingleQuoted_break reads ⟨lineBreak, printable⟩ notFeed
      · by_cases blank : c = ' '
        · exact blank ▸ readsSingleQuoted_blank reads
        · refine readsSingleQuoted_word reads indented ⟨?_, by simpa using lineBreak⟩
          rw [isWhite_eq_of_isPrintable printable]
          simpa using blank

/-! ## Texts -/

/-- Where a quoted text ends: in front of what follows it, and on the same line unless the text
holds a line break. -/
structure IsBehind (text written rest : List Char) (start place : Cursor) : Prop where
  rest_eq : place.rest = rest
  line_le : start.line ≤ place.line
  sameLine : text.any isBreak = false →
    place = ⟨rest, start.index + written.length, start.line, start.column + written.length⟩

/-- The mark on both sides of a quoted text. -/
def quotationMark (double : Bool) : Char :=
  if double then '"' else '\''

theorem allowsSingleQuotes_of_styleOf {text : String} (style : styleOf text = .singleQuoted) :
    allowsSingleQuotes text.toList = true ∧ '\n' ∉ text.toList := by
  unfold styleOf at style
  simp only at style
  split_ifs at style with feed lines plain quotes
  exact ⟨quotes, feed⟩

theorem allowsLines_of_styleOf {text : String} (style : styleOf text = .lines) :
    allowsLines text.toList = true ∧ '\n' ∈ text.toList := by
  unfold styleOf at style
  simp only at style
  split_ifs at style with feed lines
  exact ⟨lines, feed⟩

theorem quoted?_doubleQuoted (text rest : List Char) (index line column : Nat)
    (enough : ('"' :: (text.flatMap doubleQuotedCharacter ++ '"' :: rest)).length < fuel) :
    quoted? true fuel
        ⟨'"' :: (text.flatMap doubleQuotedCharacter ++ '"' :: rest), index, line, column⟩ =
      some (text, ⟨rest, index + (('"' :: text.flatMap doubleQuotedCharacter) ++ ['"']).length,
        line, column + (('"' :: text.flatMap doubleQuotedCharacter) ++ ['"']).length⟩) := by
  have read := quotedTail?_doubleQuoted text rest line 0 [] fuel (index + 1) (column + 1)
    (Nat.succ_pos column) (by simpa only [List.length_cons, Nat.zero_add] using enough)
  refine read.trans ?_
  simp only [List.reverse_nil, blanks, List.replicate_zero, List.nil_append, List.length_append,
    List.length_cons, List.length_nil]
  congr 3 <;> omega

theorem quoted?_singleQuoted {indent : Nat} (indented : 0 < indent) {text rest : List Char}
    (allowed : allowsSingleQuotes text = true) (noFeed : '\n' ∉ text)
    (single : rest.head? ≠ some '\'') (index line column : Nat)
    (enough : ('\'' :: (singleQuotedTail indent false text ++ rest)).length < fuel) :
    ∃ place, IsBehind text ('\'' :: singleQuotedTail indent false text) rest
        ⟨'\'' :: (singleQuotedTail indent false text ++ rest), index, line, column⟩ place ∧
      quoted? false fuel
          ⟨'\'' :: (singleQuotedTail indent false text ++ rest), index, line, column⟩ =
        some (text, place) := by
  simp only [allowsSingleQuotes, needsEscapes, Bool.not_eq_true', Bool.or_eq_false_iff,
    List.any_eq_false] at allowed
  obtain ⟨⟨printable, noBreak⟩, noBlank⟩ := allowed
  -- The opening quote is neither a blank nor a line break.
  have noBreakBehind : holdsPair (· == ' ') isBreak ('\'' :: text) = false := by
    cases text <;> simp_all [holdsPair]
  have noBlankBehind : holdsPair isBreak (· == ' ') ('\'' :: text) = false := by
    cases text <;> simp_all [holdsPair, show isBreak '\'' = false by decide]
  have allowed (c : Char) (member : c ∈ text) : isPrintable c = true ∧ c ≠ '\n' :=
    ⟨by simpa using printable c member, fun feed => noFeed (feed ▸ member)⟩
  obtain ⟨place, atRest, ordered, sameLine, read⟩ := readsSingleQuoted indented single text allowed
    '\'' false (blanks 0) [] fuel (index + 1) line (column + 1) (.blanks 0 (by simp)) noBreakBehind
    noBlankBehind (Nat.succ_pos column)
    (by simpa only [blanks, List.replicate_zero, List.nil_append, List.length_cons] using enough)
  refine ⟨place, ⟨atRest, ordered, fun noBreaks => ?_⟩, read⟩
  rw [sameLine rfl noBreaks]
  simp only [blanks, List.replicate_zero, List.nil_append, List.length_cons]
  congr 1 <;> omega

theorem quoted?_writeText {indent : Nat} (indented : 0 < indent) {text : String} {double : Bool}
    (style : styleOf text = if double then .doubleQuoted else .singleQuoted) (rest : List Char)
    (single : rest.head? ≠ some '\'') (fuel index line column : Nat)
    (enough : (writeText indent text ++ rest).length < fuel) :
    ∃ tail place, writeText indent text ++ rest = quotationMark double :: tail ∧
      IsBehind text.toList (writeText indent text) rest
        ⟨quotationMark double :: tail, index, line, column⟩ place ∧
      quoted? double fuel ⟨quotationMark double :: tail, index, line, column⟩ =
        some (text.toList, place) := by
  cases double with
  | true =>
      have written : writeText indent text =
          ('"' :: text.toList.flatMap doubleQuotedCharacter) ++ ['"'] := by
        simp [writeText, style]
      have shape : writeText indent text ++ rest =
          '"' :: (text.toList.flatMap doubleQuotedCharacter ++ '"' :: rest) := by
        simp [written]
      rw [shape] at enough
      refine ⟨_, _, shape, ⟨rfl, Nat.le_refl line, fun _ => ?_⟩,
        quoted?_doubleQuoted text.toList rest index line column enough⟩
      rw [written]
  | false =>
      obtain ⟨allowed, noFeed⟩ := allowsSingleQuotes_of_styleOf style
      have written : writeText indent text =
          '\'' :: singleQuotedTail indent false text.toList := by
        simp [writeText, style]
      have shape : writeText indent text ++ rest =
          '\'' :: (singleQuotedTail indent false text.toList ++ rest) := by
        simp [written]
      rw [shape] at enough
      obtain ⟨place, behind, read⟩ :=
        quoted?_singleQuoted indented allowed noFeed single index line column enough
      exact ⟨_, place, shape, written ▸ behind, read⟩

theorem getLast?_singleQuotedTail (indent : Nat) (text : List Char) :
    ∀ afterBreak, (singleQuotedTail indent afterBreak text).getLast? = some '\'' := by
  induction text with
  | nil => simp [singleQuotedTail]
  | cons c text ih =>
      intro afterBreak
      obtain ⟨front, written⟩ : ∃ front, singleQuotedTail indent afterBreak (c :: text) =
          front ++ singleQuotedTail indent (isBreak c) text := by
        rw [singleQuotedTail]
        cases isBreak c with
        | true => exact ⟨[c], rfl⟩
        | false => exact ⟨_, rfl⟩
      rw [written, List.getLast?_append, ih]
      rfl

theorem endLine_quoted {text : String} {double : Bool}
    (style : styleOf text = if double then .doubleQuoted else .singleQuoted) (indent : Nat) :
    endLine (writeText indent text) = writeText indent text ++ ['\n'] := by
  have last : (writeText indent text).getLast? = some (quotationMark double) := by
    cases double with
    | true => simp [writeText, style, quotationMark, List.getLast?_append, List.getLast?_cons]
    | false =>
        simp [writeText, style, quotationMark, List.getLast?_cons, getLast?_singleQuotedTail]
  have notBreak : isBreak (quotationMark double) = false := by cases double <;> decide
  simp [endLine, last, notBreak]

end

/-! ## Lengths -/

theorem utf8Size_eq (c : Char) : c.utf8Size =
    if c.toNat ≤ 0x7F then 1 else if c.toNat ≤ 0x7FF then 2 else if c.toNat ≤ 0xFFFF then 3
      else 4 := by
  simp only [Char.utf8Size, UInt32.le_iff_toNat_le]
  rfl

theorem length_doubleQuotedCharacter_le (c : Char) :
    (doubleQuotedCharacter c).length ≤ 4 * c.utf8Size := by
  have positive := c.utf8Size_pos
  unfold doubleQuotedCharacter
  split
  next =>
    simp only [List.length_cons, List.length_nil]
    omega
  next =>
    split_ifs <;> simp only [List.length_cons, List.length_nil, length_hexDigits]
    · omega
    · omega
    · rw [utf8Size_eq]
      split_ifs <;> omega
    · rw [utf8Size_eq]
      split_ifs <;> omega

theorem utf8ByteSize_ofList (text : List Char) :
    (String.ofList text).utf8ByteSize = (text.map Char.utf8Size).sum := by
  induction text with
  | nil => rfl
  | cons c text ih =>
      rw [String.ofList_cons, String.utf8ByteSize_append, String.utf8ByteSize_singleton, ih,
        List.map_cons, List.sum_cons]

theorem length_le_sum_utf8Size (text : List Char) : text.length ≤ (text.map Char.utf8Size).sum := by
  induction text with
  | nil => simp
  | cons c text ih =>
      have positive := c.utf8Size_pos
      simp only [List.length_cons, List.map_cons, List.sum_cons]
      omega

theorem length_doubleQuoted_le (text : List Char) :
    (text.flatMap doubleQuotedCharacter).length ≤ 4 * (text.map Char.utf8Size).sum := by
  induction text with
  | nil => simp
  | cons c text ih =>
      have first := length_doubleQuotedCharacter_le c
      simp only [List.flatMap_cons, List.length_append, List.map_cons, List.sum_cons]
      omega

theorem length_singleQuotedTail_le (indent : Nat) {text : List Char}
    (noBreaks : text.any isBreak = false) :
    (singleQuotedTail indent false text).length ≤ 2 * text.length + 1 := by
  induction text with
  | nil => simp [singleQuotedTail]
  | cons c text ih =>
      simp only [List.any_cons, Bool.or_eq_false_iff] at noBreaks
      have others := ih noBreaks.2
      have written : singleQuotedTail indent false (c :: text) =
          singleQuotedCharacter c ++ singleQuotedTail indent false text := by
        simp [singleQuotedTail, noBreaks.1, singleQuotedCharacter]
      have first : (singleQuotedCharacter c).length ≤ 2 := by
        unfold singleQuotedCharacter
        split_ifs <;> simp
      rw [written, List.length_append, List.length_cons]
      omega

/-- What is written for a text on one line is not much longer than the text. -/
theorem length_writeText_le {text : String} (noBreaks : text.toList.any isBreak = false)
    (indent : Nat) : (writeText indent text).length ≤ 4 * text.utf8ByteSize + 2 := by
  have bytes : text.utf8ByteSize = (text.toList.map Char.utf8Size).sum := by
    rw [← utf8ByteSize_ofList, String.ofList_toList]
  have short := length_le_sum_utf8Size text.toList
  rw [bytes]
  cases style : styleOf text with
  | plain =>
      simp only [writeText, style]
      omega
  | singleQuoted =>
      have tail := length_singleQuotedTail_le indent noBreaks
      simp only [writeText, style, List.length_cons]
      omega
  | doubleQuoted =>
      have inside := length_doubleQuoted_le text.toList
      simp only [writeText, style, List.length_append, List.length_cons, List.length_nil]
      omega
  | lines =>
      rw [List.any_eq_false] at noBreaks
      exact absurd isLineBreak_feed.1 (noBreaks '\n' (allowsLines_of_styleOf style).2)

end Lexeme

end DeployTarget.Yaml
