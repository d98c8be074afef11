import DeployTarget.Yaml.Token
import DeployTarget.Yaml.Writer
import Mathlib.Tactic.Common

/-!
# Plain texts

A text that may be written plain is read as itself, up to the colon of a key or to the end
of its line; blanks inside it are a gap that the text goes on behind.
-/

namespace DeployTarget.Yaml

open Writer

/-! ## Characters -/

theorem isWhite_eq_of_isPrintable {c : Char} (printable : isPrintable c = true) :
    isWhite c = (c == ' ') := by
  have noTab : c ≠ '\t' := by
    rintro rfl
    exact absurd printable (by decide)
  simp [isWhite, noTab]

/-! ## Cursors -/

namespace Cursor

variable {index line column : Nat}

theorem skip_append (taken rest : List Char) :
    (⟨taken ++ rest, index, line, column⟩ : Cursor).skip taken.length =
      ⟨rest, index + taken.length, line, column + taken.length⟩ := by
  simp [skip]

theorem takeWhile_append {test : Char → Bool} {taken rest : List Char}
    (all : ∀ c ∈ taken, test c = true) (stops : ∀ c ∈ rest.head?, test c = false) :
    (⟨taken ++ rest, index, line, column⟩ : Cursor).takeWhile test =
      (taken, ⟨rest, index + taken.length, line, column + taken.length⟩) := by
  have whole : (taken ++ rest).takeWhile test = taken := by
    rw [List.takeWhile_append_of_pos all]
    cases rest with
    | nil => simp
    | cons c rest => simp [stops c rfl]
  rw [takeWhile]
  simp only [whole, skip_append]

theorem atDocumentMark_of_pos {rest : List Char} (positive : 0 < column) :
    (⟨rest, index, line, column⟩ : Cursor).atDocumentMark = false := by
  simp [atDocumentMark, Nat.ne_of_gt positive]

end Cursor

/-! ## Gaps -/

theorem length_blanks (count : Nat) : (blanks count).length = count :=
  List.length_replicate

theorem blanks_append_cons (count : Nat) (rest : List Char) :
    blanks count ++ ' ' :: rest = blanks (count + 1) ++ rest := by
  rw [blanks, blanks, List.replicate_succ', List.append_assoc, List.singleton_append]

theorem Gap.read?_blanks (indent : Int) (before : List Char) (count fuel : Nat)
    (rest : List Char) (index line column : Nat) :
    Gap.read? indent (count + fuel) ⟨before, [], [], false⟩
        ⟨Writer.blanks count ++ rest, index, line, column⟩ =
      Gap.read? indent fuel ⟨before ++ Writer.blanks count, [], [], false⟩
        ⟨rest, index + count, line, column + count⟩ := by
  induction count generalizing before index column with
  | zero => simp [Writer.blanks]
  | succ count ih =>
      have step : Gap.read? indent (count + fuel + 1) ⟨before, [], [], false⟩
          ⟨Writer.blanks (count + 1) ++ rest, index, line, column⟩ =
          Gap.read? indent (count + fuel) ⟨before ++ [' '], [], [], false⟩
            ⟨Writer.blanks count ++ rest, index + 1, line, column + 1⟩ := rfl
      rw [Nat.add_right_comm, step, ih, List.append_assoc]
      congr 2 <;> omega

/-- Blanks at the beginning of a line are dropped. -/
theorem Gap.read?_indentation (indent : Int) (gap : Gap) (broken : gap.broken = true)
    (count fuel : Nat) (rest : List Char) (index line column : Nat) :
    Gap.read? indent (count + fuel) gap ⟨Writer.blanks count ++ rest, index, line, column⟩ =
      Gap.read? indent fuel gap ⟨rest, index + count, line, column + count⟩ := by
  induction count generalizing index column with
  | zero => simp [Writer.blanks]
  | succ count ih =>
      have step : Gap.read? indent (count + fuel + 1) gap
          ⟨Writer.blanks (count + 1) ++ rest, index, line, column⟩ =
          Gap.read? indent (count + fuel) (gap.addBlank ' ')
            ⟨Writer.blanks count ++ rest, index + 1, line, column + 1⟩ := by
        simp [Gap.read?, Writer.blanks, List.replicate_succ, Cursor.next,
          show isWhite ' ' = true by decide]
      rw [Nat.add_right_comm, step, Gap.addBlank, if_pos broken, ih]
      congr 2 <;> omega

/-- Whether a text is at its end, or goes on with neither a blank nor a line break. -/
def StartsWord (rest : List Char) : Prop :=
  ∀ c ∈ rest.head?, isWhite c = false ∧ isBreak c = false

theorem Gap.read?_startsWord {rest : List Char} (starts : StartsWord rest) (indent : Int)
    (gap : Gap) (fuel index line column : Nat) :
    Gap.read? indent (fuel + 1) gap ⟨rest, index, line, column⟩ =
      some (gap, ⟨rest, index, line, column⟩) := by
  cases rest with
  | nil => rfl
  | cons c rest =>
      obtain ⟨notWhite, notBreak⟩ := starts c rfl
      simp [Gap.read?, notWhite, notBreak]

/-! ## Plain texts -/

namespace Lexeme

/-- The blanks in front of a word are a pending gap of a plain text. -/
theorem plainTail?_blanks {indent : Int} {count fuel index line column : Nat}
    (present : 0 < count) {rest : List Char} (starts : StartsWord rest) (enough : count ≤ fuel)
    (inside : indent ≤ column) (text : List Char) :
    plainTail? false indent (fuel + 2) text none ⟨blanks count ++ rest, index, line, column⟩ =
      plainTail? false indent (fuel + 1) text (some ⟨blanks count, [], [], false⟩)
        ⟨rest, index + count, line, column + count⟩ := by
  obtain ⟨count, rfl⟩ := Nat.exists_eq_add_of_le' present
  obtain ⟨more, rfl⟩ := Nat.exists_eq_add_of_le' enough
  have gap : Gap.read? indent (more + (count + 1) + 1) .none
      ⟨blanks (count + 1) ++ rest, index, line, column⟩ =
      some (⟨blanks (count + 1), [], [], false⟩,
        ⟨rest, index + (count + 1), line, column + (count + 1)⟩) := by
    rw [show more + (count + 1) + 1 = count + 1 + (more + 1) by omega]
    exact (Gap.read?_blanks indent [] (count + 1) (more + 1) rest index line column).trans
      (Gap.read?_startsWord starts indent _ more _ line _)
  have notOut : ¬ ((column + (count + 1) : Nat) : Int) < indent := by omega
  rw [show blanks (count + 1) ++ rest = ' ' :: (blanks count ++ rest) from rfl] at gap ⊢
  rw [plainTail?]
  simp only [Option.isSome_none, Bool.false_and, Bool.false_eq_true, if_false, Option.getD_none,
    show (isWhite ' ' || isBreak ' ') = true by decide, if_true, gap, Option.bind_eq_bind,
    Option.bind_some, Bool.not_false, Bool.true_and, decide_eq_true_eq, if_neg notOut]

/-- Outside of flow collections no colon is in the way. -/
theorem isStrayColon_block (rest : List Char) : isStrayColon false rest = false := by
  unfold isStrayColon
  split <;> rfl

/-- A character of a word goes on with a plain text, behind the gap that is pending. -/
theorem plainTail?_word {inFlow : Bool} {indent : Int} {c : Char} {rest text : List Char}
    {gap : Option Gap} {fuel index line column : Nat}
    (word : isWhite c = false ∧ isBreak c = false)
    (notStray : isStrayColon inFlow (c :: rest) = false)
    (inside : endsPlain inFlow (c :: rest) = false)
    (goesOn : gap.isSome = true → c ≠ '#' ∧
      (⟨c :: rest, index, line, column⟩ : Cursor).atDocumentMark = false) :
    plainTail? inFlow indent (fuel + 1) text gap ⟨c :: rest, index, line, column⟩ =
      plainTail? inFlow indent fuel (c :: (gap.getD .none).folded.reverse ++ text) none
        ⟨rest, index + 1, line, column + 1⟩ := by
  have noMark : (gap.isSome && ((⟨c :: rest, index, line, column⟩ : Cursor).atDocumentMark ||
      (⟨c :: rest, index, line, column⟩ : Cursor).head? == some '#')) = false := by
    cases gap with
    | none => rfl
    | some gap =>
        obtain ⟨notComment, notMark⟩ := goesOn rfl
        simp [notMark, Cursor.head?, notComment]
  rw [plainTail?, if_neg (by simp [noMark])]
  simp [word, notStray, inside, Cursor.next]

/-- A character of a text does not end the text, unless it is a colon at the end of a word. -/
theorem endsPlain_append {c : Char} {rest : List Char} (inside : c = ':' → endsWord rest = false)
    (tail : List Char) : endsPlain false (c :: (rest ++ tail)) = false := by
  by_cases colon : c = ':'
  · subst colon
    cases rest with
    | nil => exact absurd (inside rfl) (by simp [endsWord])
    | cons next rest => simpa [endsPlain, endsWord] using inside rfl
  · unfold endsPlain
    split
    next same => exact absurd (List.cons.inj same).1 colon
    next => rfl
    next empty => cases empty

/-- Whether a plain text ends in front of what follows it, as what was read up to there says. -/
def StopsPlain (indent : Int) (tail : List Char) (line : Nat)
    (ending : List Char → Nat → Nat → Plain) : Prop :=
  ∀ (fuel : Nat) (text : List Char) (index column : Nat), 2 * tail.length + 2 ≤ fuel →
    indent ≤ column → 0 < column →
    plainTail? false indent fuel text none ⟨tail, index, line, column⟩ =
      some (ending text index column)

/-- Whether a part of a plain text is read up to the end of the text, whatever blanks are pending
in front of it. -/
def ReadsPlain (indent : Int) (tail : List Char) (line : Nat)
    (ending : List Char → Nat → Nat → Plain) (body : List Char) : Prop :=
  ∀ (count : Nat) (before : Char) (text : List Char) (fuel index column : Nat),
    holdsIndicator (before :: body) = false → (0 < count → before = ' ' ∧ body ≠ []) →
    indent ≤ column → 0 < column → 2 * (count + body.length + tail.length) + 2 ≤ fuel →
    plainTail? false indent fuel text none ⟨blanks count ++ body ++ tail, index, line, column⟩ =
      some (ending (body.reverse ++ blanks count ++ text) (index + (count + body.length))
        (column + (count + body.length)))

private theorem getLast?_ne_of_cons {c last : Char} {rest : List Char}
    (ends : (c :: rest).getLast? ≠ some last) : rest.getLast? ≠ some last := by
  cases rest with
  | nil => simp
  | cons other rest => simpa [List.getLast?_cons_cons] using ends

theorem holdsIndicator_of_cons {c : Char} {rest : List Char}
    (free : holdsIndicator (c :: rest) = false) : holdsIndicator rest = false := by
  cases rest with
  | nil => rfl
  | cons next rest =>
      simp only [holdsIndicator, Bool.or_eq_false_iff] at free ⊢
      exact free.2

section

variable {indent : Int} {tail rest : List Char} {line : Nat}
  {ending : List Char → Nat → Nat → Plain}

theorem readsPlain_nil (stops : StopsPlain indent tail line ending) :
    ReadsPlain indent tail line ending [] := by
  intro count before text fuel index column free pending inside positive enough
  obtain rfl : count = 0 := by
    by_contra present
    exact (pending (Nat.pos_of_ne_zero present)).2 rfl
  exact stops fuel text index column (by simpa using enough) inside positive

theorem readsPlain_blank (reads : ReadsPlain indent tail line ending rest) (more : rest ≠ []) :
    ReadsPlain indent tail line ending (' ' :: rest) := by
  intro count before text fuel index column free pending inside positive enough
  rw [List.length_cons] at enough
  have read := reads (count + 1) ' ' text fuel index column (holdsIndicator_of_cons free)
    (fun _ => ⟨rfl, more⟩) inside positive (by omega)
  rw [List.append_assoc, List.cons_append, blanks_append_cons, ← List.append_assoc, read,
    List.length_cons, List.reverse_cons]
  simp only [blanks, List.replicate_succ, List.append_assoc, List.cons_append, List.nil_append]
  congr 2 <;> omega

/-- A character of a word comes behind the blanks that are pending, and nothing is pending behind
it. -/
theorem readsPlain_word (reads : ReadsPlain indent tail line ending rest) {c : Char}
    (word : isWhite c = false ∧ isBreak c = false) :
    ReadsPlain indent tail line ending (c :: rest) := by
  intro count before text fuel index column free pending inside positive enough
  rw [List.length_cons] at enough
  have goesOn : endsPlain false (c :: (rest ++ tail)) = false := by
    refine endsPlain_append (fun colon => ?_) tail
    simp only [holdsIndicator, Bool.or_eq_false_iff] at free
    simpa [colon] using free.1.1
  have restRead (fuel : Nat) (enough : 2 * (rest.length + tail.length) + 2 ≤ fuel) :=
    reads 0 c (c :: blanks count ++ text) fuel (index + (count + 1)) (column + (count + 1))
      (holdsIndicator_of_cons free) (by simp) (by omega) (by omega) (by omega)
  have appended : (c :: rest).reverse ++ blanks count ++ text =
      rest.reverse ++ blanks 0 ++ (c :: blanks count ++ text) := by
    simp [blanks]
  rw [appended, List.append_assoc]
  rcases Nat.eq_zero_or_pos count with rfl | present
  · obtain ⟨fuel, rfl⟩ : ∃ less, fuel = less + 1 := ⟨fuel - 1, by omega⟩
    rw [show blanks 0 ++ (c :: rest ++ tail) = c :: (rest ++ tail) from rfl,
      plainTail?_word word (isStrayColon_block _) goesOn (by simp)]
    refine (restRead fuel (by omega)).trans ?_
    congr 2 <;> simp <;> omega
  · obtain ⟨fuel, rfl⟩ : ∃ less, fuel = less + 2 := ⟨fuel - 2, by omega⟩
    have notComment : c ≠ '#' := by
      rintro rfl
      obtain rfl := (pending present).1
      simp [holdsIndicator, show isWhite ' ' = true by decide] at free
    rw [plainTail?_blanks present (fun other first => by cases first; exact word) (by omega) inside,
      List.cons_append, plainTail?_word word (isStrayColon_block _) goesOn fun _ =>
        ⟨notComment, Cursor.atDocumentMark_of_pos (by omega)⟩]
    refine Eq.trans ?_ ((restRead fuel (by omega)).trans ?_)
    · simp only [Option.getD_some, Gap.folded, Bool.false_eq_true, if_false, blanks,
        List.reverse_replicate]
      rfl
    · congr 2 <;> simp <;> omega

/-- A part of a plain text that does not end with a blank is read up to the end of the text. -/
theorem readsPlain (stops : StopsPlain indent tail line ending) (body : List Char)
    (allowed : ∀ c ∈ body, isPrintable c = true ∧ isBreak c = false)
    (last : body.getLast? ≠ some ' ') : ReadsPlain indent tail line ending body := by
  induction body with
  | nil => exact readsPlain_nil stops
  | cons c rest ih =>
      obtain ⟨⟨printable, notBreak⟩, allowedRest⟩ := List.forall_mem_cons.mp allowed
      have reads := ih allowedRest (getLast?_ne_of_cons last)
      by_cases blank : c = ' '
      · subst blank
        refine readsPlain_blank reads ?_
        rintro rfl
        exact last rfl
      · refine readsPlain_word reads ⟨?_, notBreak⟩
        rw [isWhite_eq_of_isPrintable printable]
        simpa using blank

end

theorem stopsPlain_colon {rest : List Char} (ends : endsWord rest = true) (indent : Int)
    (line : Nat) :
    StopsPlain indent (':' :: rest) line fun text index column =>
      ⟨text.reverse, ⟨':' :: rest, index, line, column⟩, false⟩ := by
  intro fuel text index column enough _ _
  obtain ⟨fuel, rfl⟩ := Nat.exists_eq_add_of_le' (show 1 ≤ fuel by omega)
  simp [plainTail?, isWhite, isBreak, isStrayColon_block, endsPlain, ends, Gap.none]

/-- A plain text ends in front of a line that is not indented as far. -/
theorem stopsPlain_line {indent : Int} {count : Nat} (outside : (count : Int) < indent)
    {rest : List Char} (starts : StartsWord rest) (line : Nat) :
    StopsPlain indent ('\n' :: (blanks count ++ rest)) line fun text index _ =>
      ⟨text.reverse, ⟨rest, index + 1 + count, line + 1, count⟩, true⟩ := by
  intro fuel text index column enough _ _
  simp only [List.length_cons, List.length_append, length_blanks] at enough
  obtain ⟨more, rfl⟩ : ∃ more, fuel = count + (more + 1) + 1 + 1 := ⟨fuel - count - 3, by omega⟩
  have gap : Gap.read? indent (count + (more + 1) + 1) .none
      ⟨'\n' :: (blanks count ++ rest), index, line, column⟩ =
      some (⟨[], ['\n'], [], true⟩, ⟨rest, index + 1 + count, line + 1, 0 + count⟩) := by
    have step : Gap.read? indent (count + (more + 1) + 1) .none
        ⟨'\n' :: (blanks count ++ rest), index, line, column⟩ =
        Gap.read? indent (count + (more + 1)) ⟨[], ['\n'], [], true⟩
          ⟨blanks count ++ rest, index + 1, line + 1, 0⟩ := rfl
    rw [step, Gap.read?_indentation indent _ rfl]
    exact Gap.read?_startsWord starts indent _ more _ _ _
  rw [plainTail?]
  simp [gap, show isBreak '\n' = true by decide, outside]

/-- What stands in a text that may be written plain. -/
structure IsPlain (text : List Char) : Prop where
  begins : beginsWithIndicator text = false
  free : holdsIndicator text = false
  characters : ∀ c ∈ text, isPrintable c = true ∧ isBreak c = false
  head : text.head? ≠ some ' '
  last : text.getLast? ≠ some ' '

theorem isPlain_of_allowsPlain {text : List Char} (allowed : allowsPlain text = true) :
    IsPlain text := by
  simp only [allowsPlain, Bool.not_eq_true', Bool.or_eq_false_iff, needsEscapes,
    hasLooseEnd, List.any_eq_false, Bool.not_eq_true] at allowed
  obtain ⟨⟨⟨⟨begins, free⟩, head, last⟩, noBreak⟩, printable, -⟩ := allowed
  refine ⟨begins, free, fun c member => ⟨by simpa using printable c member, noBreak c member⟩,
    ?_, ?_⟩
  · intro blank
    simp [blank] at head
  · intro blank
    simp [blank] at last

theorem isPlain_of_styleOf {text : String} (style : styleOf text = .plain) :
    IsPlain text.toList ∧ text.toList ≠ [] ∧ Scalar.ofPlain? text = some (.text text) := by
  unfold styleOf at style
  simp only at style
  split_ifs at style with feed lines plain
  simp only [readsOtherwise, Bool.and_eq_true, Bool.not_eq_true', Bool.or_eq_false_iff,
    bne_eq_false_iff_eq] at plain
  obtain ⟨⟨⟨faithful, -⟩, -⟩, allowed⟩ := plain
  refine ⟨isPlain_of_allowsPlain allowed, fun empty => ?_, faithful⟩
  obtain rfl : text = "" := String.toList_eq_nil_iff.mp empty
  cases faithful

/-- A plain text does not look like the mark of a document, whatever follows it. -/
theorem IsPlain.not_atDocumentMark {text tail : List Char} (plain : IsPlain text)
    (safe : ∀ c ∈ tail.head?, c ≠ '-' ∧ c ≠ '.') (index line column : Nat) (nonempty : text ≠ []) :
    (⟨text ++ tail, index, line, column⟩ : Cursor).atDocumentMark = false := by
  have marked (c : Char) (isMark : c = '-' ∨ c = '.') (rest : List Char) :
      text ++ tail ≠ c :: c :: c :: rest := by
    intro same
    have begins := plain.begins
    have unsafeTail : ∀ other, tail.head? = some other → other ≠ c := by
      rintro other first rfl
      exact isMark.elim (safe _ first).1 (safe _ first).2
    match text, nonempty with
    | [a], _ =>
        have behind : tail = c :: c :: rest := (List.cons.inj same).2
        exact unsafeTail c (congrArg List.head? behind) rfl
    | [a, b], _ =>
        have behind : tail = c :: rest := (List.cons.inj (List.cons.inj same).2).2
        exact unsafeTail c (congrArg List.head? behind) rfl
    | a :: b :: d :: more, _ =>
        simp only [List.cons_append, List.cons.injEq] at same
        obtain ⟨rfl, rfl, rfl, -⟩ := same
        rcases isMark with rfl | rfl <;> exact absurd begins (by simp [beginsWithIndicator])
  unfold Cursor.atDocumentMark
  split
  next same => exact absurd same (marked '-' (.inl rfl) _)
  next same => exact absurd same (marked '.' (.inr rfl) _)
  next => exact Bool.and_false _

theorem IsPlain.word {c : Char} {rest : List Char} (plain : IsPlain (c :: rest)) :
    isWhite c = false ∧ isBreak c = false := by
  obtain ⟨printable, notBreak⟩ := plain.characters c List.mem_cons_self
  have notBlank : c ≠ ' ' := fun blank => plain.head (by rw [blank]; rfl)
  refine ⟨?_, notBreak⟩
  rw [isWhite_eq_of_isPrintable printable]
  simpa using notBlank

/-- The first character of a plain text is no indicator, or it is none where it stands. -/
theorem IsPlain.indicator {c : Char} {rest : List Char} (plain : IsPlain (c :: rest)) :
    isFirstIndicator c = false ∧ ((c = '?' ∨ c = ':' ∨ c = '-') → endsWord rest = false) := by
  have begins := plain.begins
  unfold beginsWithIndicator at begins
  split at begins
  · cases begins
  · cases begins
  · next same =>
      cases same
      simp only [Bool.or_eq_false_iff, Bool.and_eq_false_iff, beq_eq_false_iff_ne] at begins
      refine ⟨begins.1, fun mark => begins.2.resolve_left fun none => ?_⟩
      rcases mark with rfl | rfl | rfl <;> simp at none
  · next same => cases same

theorem IsPlain.notComment {c : Char} {rest : List Char} (plain : IsPlain (c :: rest)) :
    c ≠ '#' := by
  rintro rfl
  exact absurd plain.indicator.1 (by decide)

theorem plain?_of_isPlain {indent : Int} {text tail : List Char} {line : Nat}
    {ending : List Char → Nat → Nat → Plain} (plain : IsPlain text) (nonempty : text ≠ [])
    (safe : ∀ c ∈ tail.head?, c ≠ '-' ∧ c ≠ '.') (stops : StopsPlain indent tail line ending)
    (fuel index column : Nat) (inside : indent ≤ column + 1)
    (enough : text.length + tail.length < fuel) :
    plain? false indent fuel ⟨text ++ tail, index, line, column⟩ =
      some (ending text.reverse (index + text.length) (column + text.length)) := by
  have notMark := plain.not_atDocumentMark safe index line column nonempty
  obtain ⟨c, rest, rfl⟩ := List.exists_cons_of_ne_nil nonempty
  have goesOn : endsPlain false (c :: (rest ++ tail)) = false :=
    endsPlain_append (fun colon => plain.indicator.2 (.inr (.inl colon))) tail
  rw [List.length_cons] at enough
  obtain ⟨fuel, rfl⟩ : ∃ less, fuel = less + 1 := ⟨fuel - 1, by omega⟩
  have read := readsPlain stops rest
    (fun other member => plain.characters other (List.mem_cons_of_mem _ member))
    (getLast?_ne_of_cons plain.last) 0 c [c] (2 * fuel + 1) (index + 1) (column + 1) plain.free
    (by simp) (by omega) (by omega) (by omega)
  rw [plain?, show 2 * (fuel + 1) = 2 * fuel + 1 + 1 by omega, List.cons_append,
    plainTail?_word plain.word (isStrayColon_block _) goesOn fun _ => ⟨plain.notComment, notMark⟩]
  refine read.trans ?_
  rw [List.length_cons, List.reverse_cons, show index + 1 + (0 + rest.length) =
    index + (rest.length + 1) by omega, show column + 1 + (0 + rest.length) =
    column + (rest.length + 1) by omega]
  simp [blanks]

theorem plain?_colon {indent : Int} {text rest : List Char} (plain : IsPlain text)
    (nonempty : text ≠ []) (ends : endsWord rest = true) (fuel index line column : Nat)
    (inside : indent ≤ column + 1) (enough : (text ++ ':' :: rest).length < fuel) :
    plain? false indent fuel ⟨text ++ ':' :: rest, index, line, column⟩ =
      some ⟨text, ⟨':' :: rest, index + text.length, line, column + text.length⟩, false⟩ := by
  have safe : ∀ c ∈ (':' :: rest).head?, c ≠ '-' ∧ c ≠ '.' := by
    rintro c ⟨⟩
    decide
  simpa using plain?_of_isPlain plain nonempty safe (stopsPlain_colon ends indent line) fuel index
    column inside (by simpa using enough)

/-- A plain text is read up to the end of its line and over the indentation of the next one. -/
theorem plain?_line {indent : Int} {text rest : List Char} {count : Nat} (plain : IsPlain text)
    (nonempty : text ≠ []) (outside : (count : Int) < indent) (starts : StartsWord rest)
    (fuel index line column : Nat) (inside : indent ≤ column + 1)
    (enough : (text ++ '\n' :: (blanks count ++ rest)).length < fuel) :
    plain? false indent fuel ⟨text ++ '\n' :: (blanks count ++ rest), index, line, column⟩ =
      some ⟨text, ⟨rest, index + text.length + 1 + count, line + 1, count⟩, true⟩ := by
  have safe : ∀ c ∈ ('\n' :: (blanks count ++ rest)).head?, c ≠ '-' ∧ c ≠ '.' := by
    rintro c ⟨⟩
    decide
  simpa using plain?_of_isPlain plain nonempty safe (stopsPlain_line outside starts line) fuel index
    column inside (by simpa using enough)

end Lexeme

end DeployTarget.Yaml
