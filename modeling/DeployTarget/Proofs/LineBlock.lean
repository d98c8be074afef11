import DeployTarget.Proofs.QuotedText

/-!
# Blocks of lines

A text with line feeds that is written as a block of lines is read as itself, wherever the
text behind it is indented less than the block.  The text is looked at as it is read: line
breaks, and then lines with line breaks behind them, of which the last ones may be missing.
-/

namespace DeployTarget.Yaml

open Writer

/-! ## Words -/

theorem StartsWord.takeWhile_blank {rest : List Char} (starts : StartsWord rest) :
    rest.takeWhile (· == ' ') = [] := by
  cases rest with
  | nil => rfl
  | cons c rest =>
      have notBlank : c ≠ ' ' := by
        rintro rfl
        exact absurd (starts ' ' rfl).1 (by decide)
      simp [notBlank]

theorem StartsWord.begins {rest : List Char} (starts : StartsWord rest) :
    ∀ c ∈ rest.head?, isBreak c = false ∧ c ≠ '\t' := by
  intro c first
  obtain ⟨notWhite, notBreak⟩ := starts c first
  exact ⟨notBreak, by rintro rfl; exact absurd notWhite (by decide)⟩

namespace Lexeme

/-! ## Empty lines -/

section

variable {indent fuel index line deepest : Nat} {breaks rest : List Char}

theorem emptyLines?_breaks (more : List Char) (all : ∀ c ∈ more, IsLineBreak c) :
    emptyLines? (some indent) (more.length + fuel) breaks deepest
        ⟨more ++ rest, index, line, 0⟩ =
      emptyLines? (some indent) fuel (more.reverse ++ breaks) deepest
        ⟨rest, index + more.length, line + more.length, 0⟩ := by
  induction more generalizing breaks index line with
  | nil => simp
  | cons c more ih =>
      have lineBreak := all c List.mem_cons_self
      have notBlank : c ≠ ' ' := by
        rintro rfl
        exact absurd lineBreak.1 (by decide)
      have notTab : c ≠ '\t' := by
        rintro rfl
        exact absurd lineBreak.1 (by decide)
      have step : emptyLines? (some indent) (more.length + fuel + 1) breaks deepest
          ⟨c :: (more ++ rest), index, line, 0⟩ =
          emptyLines? (some indent) (more.length + fuel) (c :: breaks) deepest
            ⟨more ++ rest, index + 1, line + 1, 0⟩ := by
        simp [emptyLines?, notBlank, notTab, Cursor.skip, lineBreak.1, lineBreak.breakCharacter,
          lineBreak.nextLine]
      rw [List.length_cons, Nat.add_right_comm, List.cons_append, step,
        ih fun other member => all other (List.mem_cons_of_mem _ member)]
      simp [Nat.add_assoc, Nat.add_comm 1]

/-- The indentation of a line is taken off, as far as it counts. -/
theorem emptyLines?_blanks {written : Option Nat} (count : Nat)
    (depth : (match written with
      | some indent => min (count + (rest.takeWhile (· == ' ')).length) indent
      | none => count + (rest.takeWhile (· == ' ')).length) = count)
    (begins : ∀ c ∈ rest.head?, isBreak c = false ∧ c ≠ '\t') :
    emptyLines? written (fuel + 1) breaks deepest ⟨blanks count ++ rest, index, line, 0⟩ =
      some ⟨breaks.reverse, max deepest count, ⟨rest, index + count, line, count⟩⟩ := by
  have length : ((blanks count ++ rest).takeWhile (· == ' ')).length =
      count + (rest.takeWhile (· == ' ')).length := by
    rw [List.takeWhile_append_of_pos (by simp [blanks]), List.length_append, length_blanks]
  have behind : (⟨blanks count ++ rest, index, line, 0⟩ : Cursor).skip count =
      ⟨rest, index + count, line, count⟩ := by
    simp [Cursor.skip, blanks]
  cases written <;>
  · simp only at depth
    simp only [emptyLines?, length, Nat.sub_zero, depth, behind]
    cases rest with
    | nil => rfl
    | cons c rest =>
        obtain ⟨notBreak, notTab⟩ := begins c rfl
        simp [notBreak, notTab]

/-- A line is indented as far as its block, and may go on with blanks. -/
theorem emptyLines?_line {c : Char} (printable : isPrintable c = true)
    (notBreak : isBreak c = false) :
    emptyLines? (some indent) (fuel + 1) breaks deepest
        ⟨blanks indent ++ c :: rest, index, line, 0⟩ =
      some ⟨breaks.reverse, max deepest indent, ⟨c :: rest, index + indent, line, indent⟩⟩ := by
  refine emptyLines?_blanks indent (Nat.min_eq_right (Nat.le_add_right _ _)) ?_
  rintro c ⟨⟩
  exact ⟨notBreak, by rintro rfl; exact absurd printable (by decide)⟩

theorem emptyLines?_resumes {count : Nat} (outside : count ≤ indent) (starts : StartsWord rest) :
    emptyLines? (some indent) (fuel + 1) breaks deepest
        ⟨blanks count ++ rest, index, line, 0⟩ =
      some ⟨breaks.reverse, max deepest count, ⟨rest, index + count, line, count⟩⟩ := by
  refine emptyLines?_blanks count ?_ starts.begins
  rw [starts.takeWhile_blank]
  exact Nat.min_eq_left outside

/-- The first line of a block tells how far the block is indented. -/
theorem emptyLines?_first (starts : StartsWord rest) :
    emptyLines? none (fuel + 1) breaks deepest ⟨blanks indent ++ rest, index, line, 0⟩ =
      some ⟨breaks.reverse, max deepest indent, ⟨rest, index + indent, line, indent⟩⟩ := by
  refine emptyLines?_blanks indent ?_ starts.begins
  rw [starts.takeWhile_blank]
  rfl

end

/-! ## Lines -/

/-- A text that begins with a line: with characters, and then with line breaks unless they are
its last line. -/
inductive IsLines : List Char → Prop
  | last {first : Char} {others : List Char}
      (onLine : ∀ c ∈ first :: others, isPrintable c = true ∧ isBreak c = false) :
      IsLines (first :: others)
  | ended {first : Char} {others : List Char} {lineBreak : Char} {breaks : List Char}
      (onLine : ∀ c ∈ first :: others, isPrintable c = true ∧ isBreak c = false)
      (areBreaks : ∀ c ∈ lineBreak :: breaks, IsLineBreak c) :
      IsLines (first :: others ++ lineBreak :: breaks)
  | more {first : Char} {others : List Char} {lineBreak : Char} {breaks rest : List Char}
      (onLine : ∀ c ∈ first :: others, isPrintable c = true ∧ isBreak c = false)
      (areBreaks : ∀ c ∈ lineBreak :: breaks, IsLineBreak c) (lines : IsLines rest) :
      IsLines (first :: others ++ lineBreak :: (breaks ++ rest))

theorem IsLines.cons {c : Char} {text : List Char}
    (onLine : isPrintable c = true ∧ isBreak c = false) (lines : IsLines text) :
    IsLines (c :: text) := by
  cases lines with
  | last others => exact .last (List.forall_mem_cons.mpr ⟨onLine, others⟩)
  | ended others areBreaks => exact .ended (List.forall_mem_cons.mpr ⟨onLine, others⟩) areBreaks
  | more others areBreaks lines =>
      exact .more (List.forall_mem_cons.mpr ⟨onLine, others⟩) areBreaks lines

/-- Every text that may be written is line breaks and lines behind them. -/
theorem exists_isLines {text : List Char} (printable : ∀ c ∈ text, isPrintable c = true) :
    ∃ breaks lines, text = breaks ++ lines ∧ (∀ c ∈ breaks, IsLineBreak c) ∧
      (lines = [] ∨ IsLines lines) := by
  induction text with
  | nil => exact ⟨[], [], rfl, by simp, .inl rfl⟩
  | cons c text ih =>
      obtain ⟨first, others⟩ := List.forall_mem_cons.mp printable
      obtain ⟨breaks, lines, rfl, areBreaks, isLines⟩ := ih others
      cases lineBreak : isBreak c with
      | true =>
          exact ⟨c :: breaks, lines, rfl,
            List.forall_mem_cons.mpr ⟨⟨lineBreak, first⟩, areBreaks⟩, isLines⟩
      | false =>
          have single : ∀ other ∈ [c], isPrintable other = true ∧ isBreak other = false := by
            simpa using ⟨first, lineBreak⟩
          refine ⟨[], c :: (breaks ++ lines), rfl, by simp, .inr ?_⟩
          cases breaks with
          | nil =>
              rcases isLines with rfl | isLines
              · exact .last single
              · exact isLines.cons ⟨first, lineBreak⟩
          | cons lineBreak breaks =>
              rcases isLines with rfl | isLines
              · rw [List.append_nil]
                exact .ended single areBreaks
              · exact .more single areBreaks isLines

theorem IsLines.exists_eq_cons {text : List Char} (lines : IsLines text) :
    ∃ first rest, text = first :: rest ∧ isPrintable first = true ∧ isBreak first = false := by
  cases lines with
  | last onLine => exact ⟨_, _, rfl, onLine _ List.mem_cons_self⟩
  | ended onLine _ => exact ⟨_, _, rfl, onLine _ List.mem_cons_self⟩
  | more onLine _ _ => exact ⟨_, _, rfl, onLine _ List.mem_cons_self⟩

/-! ## What is written -/

section

variable (indent : Nat)

theorem blockTail_break {lineBreak : Char} (isBreak : isBreak lineBreak = true) (afterBreak : Bool)
    (rest : List Char) :
    blockTail indent afterBreak (lineBreak :: rest) = lineBreak :: blockTail indent true rest := by
  simp [blockTail, isBreak]

theorem blockTail_cons {c : Char} (notBreak : isBreak c = false) (rest : List Char) :
    blockTail indent false (c :: rest) = c :: blockTail indent false rest := by
  simp [blockTail, notBreak]

theorem blockTail_breaks {breaks : List Char} (areBreaks : ∀ c ∈ breaks, IsLineBreak c)
    (rest : List Char) :
    blockTail indent true (breaks ++ rest) = breaks ++ blockTail indent true rest := by
  induction breaks with
  | nil => rfl
  | cons lineBreak breaks ih =>
      obtain ⟨first, others⟩ := List.forall_mem_cons.mp areBreaks
      rw [List.cons_append, blockTail_break indent first.1, ih others, List.cons_append]

theorem blockTail_onLine {characters : List Char}
    (onLine : ∀ c ∈ characters, isPrintable c = true ∧ isBreak c = false) (rest : List Char) :
    blockTail indent false (characters ++ rest) = characters ++ blockTail indent false rest := by
  induction characters with
  | nil => rfl
  | cons c characters ih =>
      obtain ⟨first, others⟩ := List.forall_mem_cons.mp onLine
      rw [List.cons_append, blockTail_cons indent first.2, ih others, List.cons_append]

theorem blockTail_lines {text : List Char} (lines : IsLines text) :
    blockTail indent true text = blanks indent ++ blockTail indent false text := by
  obtain ⟨first, rest, rfl, -, notBreak⟩ := lines.exists_eq_cons
  simp [blockTail, notBreak]

end

/-- The line feed behind a text that has no line break at its end. -/
def lineEnd (text : List Char) : List Char :=
  if text.getLast?.any isBreak then [] else ['\n']

theorem lineEnd_last {first : Char} {others : List Char}
    (onLine : ∀ c ∈ first :: others, isPrintable c = true ∧ isBreak c = false) :
    lineEnd (first :: others) = ['\n'] := by
  have last := onLine _ (List.getLast_mem (List.cons_ne_nil first others))
  rw [lineEnd, List.getLast?_eq_some_getLast (List.cons_ne_nil first others)]
  simp [last]

theorem lineEnd_breaks {lineBreak : Char} {breaks : List Char}
    (areBreaks : ∀ c ∈ lineBreak :: breaks, IsLineBreak c) (front : List Char) :
    lineEnd (front ++ lineBreak :: breaks) = [] := by
  have last := areBreaks _ (List.getLast_mem (List.cons_ne_nil lineBreak breaks))
  rw [lineEnd, List.getLast?_append,
    List.getLast?_eq_some_getLast (List.cons_ne_nil lineBreak breaks)]
  simp [last.1]

theorem lineEnd_append {text : List Char} (lines : IsLines text) (front : List Char) :
    lineEnd (front ++ text) = lineEnd text := by
  obtain ⟨first, rest, rfl, -⟩ := lines.exists_eq_cons
  rw [lineEnd, List.getLast?_append, lineEnd,
    List.getLast?_eq_some_getLast (List.cons_ne_nil first rest), Option.some_or]

theorem getLast?_blockTail (indent : Nat) {text : List Char} (nonempty : text ≠ []) :
    ∀ afterBreak, (blockTail indent afterBreak text).getLast? = text.getLast? := by
  induction text with
  | nil => exact absurd rfl nonempty
  | cons c rest ih =>
      intro afterBreak
      cases rest with
      | nil => cases lineBreak : isBreak c <;> simp [blockTail, lineBreak]
      | cons other rest =>
          have behind := ih (List.cons_ne_nil other rest) (isBreak c)
          obtain ⟨front, written⟩ : ∃ front, blockTail indent afterBreak (c :: other :: rest) =
              front ++ c :: blockTail indent (isBreak c) (other :: rest) := by
            rw [blockTail]
            cases isBreak c with
            | true => exact ⟨[], rfl⟩
            | false => exact ⟨_, rfl⟩
          rw [written, List.getLast?_append, List.getLast?_cons, behind, List.getLast?_cons_cons,
            List.getLast?_eq_some_getLast (List.cons_ne_nil other rest)]
          rfl

/-- What a header says for the line breaks at the end of a block. -/
def Chomping.mark : Chomping → List Char
  | .strip => ['-']
  | .clip => []
  | .keep => ['+']

theorem exists_chomping (text : List Char) : ∃ kind : Chomping, chomping text = kind.mark := by
  unfold chomping
  split
  · exact ⟨.strip, rfl⟩
  · split_ifs
    · exact ⟨.keep, rfl⟩
    · exact ⟨.strip, rfl⟩
  · split_ifs
    · exact ⟨.strip, rfl⟩
    · exact ⟨.keep, rfl⟩
    · exact ⟨.clip, rfl⟩

theorem chomping_of_reverse {text rest : List Char} {last previous : Char}
    (ends : text.reverse = last :: previous :: rest) :
    chomping text =
      if !isBreak last then ['-'] else if isBreak previous then ['+'] else [] := by
  rw [chomping, ends]

private theorem exists_reverse_eq_cons {α : Type} (first : α) (others : List α) :
    ∃ last rest, (first :: others).reverse = last :: rest ∧ last ∈ first :: others := by
  cases reversed : (first :: others).reverse with
  | nil => simp at reversed
  | cons last rest =>
      exact ⟨last, rest, rfl, List.mem_reverse.mp (reversed ▸ List.mem_cons_self)⟩

theorem chomping_last {first : Char} {others : List Char}
    (onLine : ∀ c ∈ first :: others, isPrintable c = true ∧ isBreak c = false) :
    chomping (first :: others) = ['-'] := by
  obtain ⟨last, rest, reversed, member⟩ := exists_reverse_eq_cons first others
  cases rest with
  | nil => simp [chomping, reversed, onLine last member]
  | cons previous rest => simp [chomping_of_reverse reversed, onLine last member]

/-- The break of a last line is all there is at its end, unless there are more. -/
theorem chomping_ended {first lineBreak : Char} {others breaks : List Char}
    (onLine : ∀ c ∈ first :: others, isPrintable c = true ∧ isBreak c = false)
    (areBreaks : ∀ c ∈ lineBreak :: breaks, IsLineBreak c) :
    chomping (first :: others ++ lineBreak :: breaks) = if breaks = [] then [] else ['+'] := by
  rcases breaks.eq_nil_or_concat with rfl | ⟨init, last, rfl⟩
  · obtain ⟨previous, rest, reversed, member⟩ := exists_reverse_eq_cons first others
    have ends : (first :: others ++ [lineBreak]).reverse = lineBreak :: previous :: rest := by
      rw [List.reverse_append, reversed]
      rfl
    rw [chomping_of_reverse ends, (areBreaks lineBreak List.mem_cons_self).1,
      (onLine previous member).2]
    rfl
  · rw [List.concat_eq_append] at areBreaks ⊢
    obtain ⟨previous, rest, reversed, member⟩ := exists_reverse_eq_cons lineBreak init
    have ends : (first :: others ++ lineBreak :: (init ++ [last])).reverse =
        last :: previous :: (rest ++ (first :: others).reverse) := by
      rw [List.reverse_append, ← List.cons_append, List.reverse_append, reversed]
      rfl
    have isBreak : isBreak last = true ∧ Yaml.isBreak previous = true := by
      refine ⟨(areBreaks last (by simp)).1, (areBreaks previous ?_).1⟩
      rw [← List.cons_append]
      exact List.mem_append_left _ member
    rw [chomping_of_reverse ends, isBreak.1, isBreak.2]
    simp

theorem chomping_breaks {lineBreak : Char} {breaks : List Char}
    (areBreaks : ∀ c ∈ lineBreak :: breaks, IsLineBreak c) :
    chomping (lineBreak :: breaks) = ['+'] := by
  obtain ⟨last, rest, reversed, member⟩ := exists_reverse_eq_cons lineBreak breaks
  have ending := (areBreaks last member).1
  cases rest with
  | nil => simp [chomping, reversed, ending]
  | cons previous rest =>
      have before : previous ∈ lineBreak :: breaks := by
        rw [← List.mem_reverse, reversed]
        simp
      simp [chomping_of_reverse reversed, ending, (areBreaks previous before).1]

/-- What stands in front of a line does not change what a header says. -/
theorem chomping_append {text : List Char} (lines : IsLines text) (front : List Char) :
    chomping (front ++ text) = chomping text := by
  have behind : (front ++ text).reverse = text.reverse ++ front.reverse := List.reverse_append
  obtain ⟨first, others, rfl, -, notBreak⟩ := lines.exists_eq_cons
  obtain ⟨last, rest, reversed, member⟩ := exists_reverse_eq_cons first others
  rw [reversed] at behind
  cases rest with
  | nil =>
      have isOne : first :: others = [last] := by simpa using congrArg List.reverse reversed
      cases isOne
      have alone : chomping [first] = ['-'] := by simp [chomping, notBreak]
      rw [alone]
      cases others : front.reverse with
      | nil => simp_all [chomping]
      | cons previous rest =>
          rw [others] at behind
          simp [chomping_of_reverse behind, notBreak]
  | cons previous rest => rw [chomping_of_reverse behind, chomping_of_reverse reversed]

/-! ## Reading blocks -/

section

variable {kind : Chomping} {indent fuel index line deepest : Nat} {more : Bool}
  {text lineBreak breaks rest : List Char}

theorem blockLines?_line {first ending : Char} {others : List Char}
    (onLine : ∀ c ∈ first :: others, isPrintable c = true ∧ isBreak c = false)
    (isBreak : IsLineBreak ending) :
    blockLines? true kind indent (fuel + 1) text lineBreak more
        ⟨breaks, deepest, ⟨first :: others ++ ending :: rest, index, line, indent⟩⟩ =
      (emptyLines? (some indent) fuel [] 0
        ⟨rest, index + (first :: others).length + 1, line + 1, 0⟩).bind fun gap =>
          blockLines? true kind indent fuel (text ++ (lineBreak ++ breaks) ++ first :: others)
            [ending] (isWhite first) gap := by
  have taken : (⟨first :: others ++ ending :: rest, index, line, indent⟩ : Cursor).takeWhile
      (!Yaml.isBreak ·) = (first :: others, ⟨ending :: rest, index + (first :: others).length, line,
        indent + (first :: others).length⟩) := by
    refine Cursor.takeWhile_append (fun c member => by simp [onLine c member]) ?_
    rintro c ⟨⟩
    simp [isBreak.1]
  rw [List.cons_append] at taken ⊢
  rw [blockLines?]
  simp [taken, isBreak.breakCharacter, isBreak.nextLine, lineGap]

theorem blockLines?_end {count : Nat} (outside : count < indent) :
    blockLines? true kind indent (fuel + 1) text lineBreak more
        ⟨breaks, deepest, ⟨rest, index, line, count⟩⟩ =
      some (blockLines?.finish kind text lineBreak ⟨breaks, deepest, ⟨rest, index, line, count⟩⟩,
        ⟨rest, index, line, count⟩) := by
  cases rest with
  | nil => rfl
  | cons c rest => simp [blockLines?, Nat.ne_of_lt outside]

end

theorem emptyLines?_outside {breaks rest : List Char} {indent count : Nat}
    (areBreaks : ∀ c ∈ breaks, IsLineBreak c) (outside : count < indent) (starts : StartsWord rest)
    (fuel index line : Nat) :
    emptyLines? (some indent) (breaks.length + (fuel + 1)) [] 0
        ⟨breaks ++ (blanks count ++ rest), index, line, 0⟩ =
      some ⟨breaks, max 0 count,
        ⟨rest, index + breaks.length + count, line + breaks.length, count⟩⟩ := by
  rw [emptyLines?_breaks breaks areBreaks, emptyLines?_resumes (Nat.le_of_lt outside) starts]
  simp

/-- Behind line breaks the text goes on with a line. -/
theorem emptyLines?_inside {breaks lines : List Char} (areBreaks : ∀ c ∈ breaks, IsLineBreak c)
    (isLines : IsLines lines) (indent : Nat) (rest : List Char) (fuel index line : Nat) :
    emptyLines? (some indent) (breaks.length + (fuel + 1)) [] 0
        ⟨breaks ++ (blanks indent ++ (blockTail indent false lines ++ rest)), index, line, 0⟩ =
      some ⟨breaks, max 0 indent, ⟨blockTail indent false lines ++ rest,
        index + breaks.length + indent, line + breaks.length, indent⟩⟩ := by
  obtain ⟨c, characters, rfl, printable, notBreak⟩ := isLines.exists_eq_cons
  rw [emptyLines?_breaks breaks areBreaks, blockTail_cons indent notBreak, List.cons_append,
    emptyLines?_line printable notBreak]
  simp

/-- What is behind a block of lines that ends in front of less indentation. -/
def behindLines (block : List Char) (count : Nat) (rest : List Char) : List Char :=
  lineEnd block ++ (blanks count ++ rest)

/-- Whether the lines of a block are read up to the text behind it, whatever was read before. -/
def ReadsLines (kind : Chomping) (indent count : Nat) (rest block : List Char) : Prop :=
  ∀ (text lineBreak breaks : List Char) (more : Bool) (deepest fuel index line : Nat),
    (blockTail indent false block ++ behindLines block count rest).length < fuel →
    ∃ index' line', line < line' ∧
      blockLines? true kind indent fuel text lineBreak more ⟨breaks, deepest,
          ⟨blockTail indent false block ++ behindLines block count rest, index, line, indent⟩⟩ =
        some (text ++ (lineBreak ++ breaks) ++ block, ⟨rest, index' + count, line', count⟩)

section

variable {indent count : Nat} {first : Char} {others rest : List Char}
  (outside : count < indent) (starts : StartsWord rest)
  (onLine : ∀ c ∈ first :: others, isPrintable c = true ∧ isBreak c = false)
include outside starts onLine

/-- A last line is ended by a line feed that is none of the text. -/
theorem readsLines_last : ReadsLines .strip indent count rest (first :: others) := by
  intro text lineBreak breaks more deepest fuel index line enough
  have written : blockTail indent false (first :: others) = first :: others := by
    simpa [blockTail] using blockTail_onLine indent onLine []
  rw [behindLines, written, lineEnd_last onLine] at enough ⊢
  simp only [List.length_append, List.length_cons] at enough
  obtain ⟨fuel, rfl⟩ : ∃ less, fuel = less + 1 + 1 := ⟨fuel - 2, by omega⟩
  rw [List.singleton_append, blockLines?_line onLine isLineBreak_feed,
    emptyLines?_resumes (Nat.le_of_lt outside) starts, Option.bind_some, blockLines?_end outside]
  exact ⟨_, _, Nat.lt_succ_self line, rfl⟩

/-- The line breaks behind a last line belong to the text. -/
theorem readsLines_ended {kind : Chomping} {ending : Char} {breaks : List Char}
    (areBreaks : ∀ c ∈ ending :: breaks, IsLineBreak c)
    (ends : kind.mark = if breaks = [] then [] else ['+']) :
    ReadsLines kind indent count rest (first :: others ++ ending :: breaks) := by
  intro text lineBreak before more deepest fuel index line enough
  obtain ⟨isBreak, areBreaks'⟩ := List.forall_mem_cons.mp areBreaks
  have written : blockTail indent false (first :: others ++ ending :: breaks) =
      first :: others ++ ending :: breaks := by
    rw [blockTail_onLine indent onLine, blockTail_break indent isBreak.1]
    simpa [blockTail] using blockTail_breaks indent areBreaks' []
  have shape : first :: others ++ ending :: breaks ++ ([] ++ (blanks count ++ rest)) =
      first :: others ++ ending :: (breaks ++ (blanks count ++ rest)) := by
    simp
  rw [behindLines, written, lineEnd_breaks areBreaks, shape] at enough ⊢
  simp only [List.length_append, List.length_cons] at enough
  obtain ⟨fuel, rfl⟩ : ∃ less, fuel = breaks.length + (less + 1) + 1 :=
    ⟨fuel - breaks.length - 2, by omega⟩
  refine ⟨index + (first :: others).length + 1 + breaks.length, line + 1 + breaks.length, by omega,
    ?_⟩
  rw [blockLines?_line onLine isBreak, emptyLines?_outside areBreaks' outside starts,
    Option.bind_some, ← Nat.add_assoc, blockLines?_end outside]
  cases kind with
  | strip => split at ends <;> cases ends
  | clip =>
      obtain rfl : breaks = [] := by
        by_contra nonempty
        rw [if_neg nonempty] at ends
        cases ends
      simp [blockLines?.finish]
  | keep => simp [blockLines?.finish]

omit outside starts in
/-- Behind a line and line breaks the next line is read. -/
theorem readsLines_more {kind : Chomping} {ending : Char} {breaks tail : List Char}
    (areBreaks : ∀ c ∈ ending :: breaks, IsLineBreak c) (lines : IsLines tail)
    (reads : ReadsLines kind indent count rest tail) :
    ReadsLines kind indent count rest (first :: others ++ ending :: (breaks ++ tail)) := by
  intro text lineBreak before more deepest fuel index line enough
  obtain ⟨isBreak, areBreaks'⟩ := List.forall_mem_cons.mp areBreaks
  have behind : behindLines (first :: others ++ ending :: (breaks ++ tail)) count rest =
      behindLines tail count rest := by
    have front : lineEnd (first :: others ++ ending :: (breaks ++ tail)) = lineEnd tail := by
      simpa using lineEnd_append lines (first :: others ++ ending :: breaks)
    rw [behindLines, front, behindLines]
  have written : blockTail indent false (first :: others ++ ending :: (breaks ++ tail)) ++
      behindLines tail count rest =
      first :: others ++ ending :: (breaks ++ (blanks indent ++
        (blockTail indent false tail ++ behindLines tail count rest))) := by
    rw [blockTail_onLine indent onLine, blockTail_break indent isBreak.1,
      blockTail_breaks indent areBreaks', blockTail_lines indent lines]
    simp
  rw [behind, written] at enough ⊢
  simp only [List.length_append, List.length_cons] at enough
  obtain ⟨fuel, rfl⟩ : ∃ less, fuel = breaks.length + (less + 1) + 1 :=
    ⟨fuel - breaks.length - 2, by omega⟩
  obtain ⟨index', line', later, read⟩ := reads (text ++ (lineBreak ++ before) ++ first :: others)
    [ending] breaks (isWhite first) (max 0 indent) (breaks.length + (fuel + 1))
    (index + (first :: others).length + 1 + breaks.length + indent) (line + 1 + breaks.length)
    (by simp only [List.length_append]; omega)
  refine ⟨index', line', by omega, ?_⟩
  rw [blockLines?_line onLine isBreak, emptyLines?_inside areBreaks' lines, Option.bind_some, read]
  simp

end

theorem readsLines {kind : Chomping} {indent count : Nat} {block rest : List Char}
    (outside : count < indent) (starts : StartsWord rest) (lines : IsLines block)
    (ends : chomping block = kind.mark) : ReadsLines kind indent count rest block := by
  induction lines with
  | last onLine =>
      rw [chomping_last onLine] at ends
      cases kind with
      | strip => exact readsLines_last outside starts onLine
      | clip => cases ends
      | keep => cases ends
  | ended onLine areBreaks =>
      rw [chomping_ended onLine areBreaks] at ends
      exact readsLines_ended outside starts onLine areBreaks ends.symm
  | @more first others ending breaks tail onLine areBreaks lines ih =>
      -- What the header says depends on the end of the text alone.
      have tailEnds : chomping tail = kind.mark := by
        rw [← ends, ← chomping_append lines (first :: others ++ ending :: breaks)]
        simp
      exact readsLines_more onLine areBreaks lines (ih tailEnds)

/-! ## Texts -/

/-- Whether a block says how far it is indented, since its text does not begin with a word. -/
def isMarked (text : List Char) : Bool :=
  text.head?.any fun c => c == ' ' || isBreak c

theorem header_eq (text : List Char) :
    header text = '|' :: ((if isMarked text then ['2'] else []) ++ chomping text) :=
  rfl

theorem header?_mark (kind : Chomping) (marked : Bool) (rest : List Char)
    (index line column : Nat) :
    ∃ index' column', header?
        ⟨(if marked then ['2'] else []) ++ (kind.mark ++ '\n' :: rest), index, line, column⟩ =
      some (⟨kind, if marked then some 2 else none⟩, ⟨'\n' :: rest, index', line, column'⟩) := by
  cases marked <;> cases kind <;> exact ⟨_, _, rfl⟩

theorem emptyLine?_feed (rest : List Char) (index line column : Nat) :
    emptyLine? ⟨'\n' :: rest, index, line, column⟩ = some ⟨rest, index + 1, line + 1, 0⟩ :=
  rfl

section

variable {parent count fuel : Nat} {text rest : List Char} {kind : Chomping}

theorem block?_breaks (areBreaks : ∀ c ∈ text, IsLineBreak c) (nonempty : text ≠ [])
    (ends : chomping text = kind.mark) (outside : count < parent + 2) (starts : StartsWord rest)
    (index line : Nat)
    (enough : (blockTail (parent + 2) true text ++ behindLines text count rest).length < fuel) :
    ∃ index' line', line ≤ line' ∧
      ((emptyLines? (some (parent + 2)) fuel [] 0
          ⟨blockTail (parent + 2) true text ++ behindLines text count rest, index, line, 0⟩).bind
        fun gap => blockLines? true kind (parent + 2) fuel [] [] false gap) =
      some (text, ⟨rest, index' + count, line', count⟩) := by
  have written : blockTail (parent + 2) true text = text := by
    simpa [blockTail] using blockTail_breaks (parent + 2) areBreaks []
  have noEnd : lineEnd text = [] ∧ chomping text = ['+'] := by
    obtain ⟨first, others, rfl⟩ := List.exists_cons_of_ne_nil nonempty
    exact ⟨lineEnd_breaks areBreaks [], chomping_breaks areBreaks⟩
  rw [noEnd.2] at ends
  rw [written, behindLines, noEnd.1, List.nil_append] at enough ⊢
  simp only [List.length_append] at enough
  obtain ⟨fuel, rfl⟩ : ∃ less, fuel = text.length + (less + 1) :=
    ⟨fuel - text.length - 1, by omega⟩
  refine ⟨index + text.length, line + text.length, Nat.le_add_right _ _, ?_⟩
  rw [emptyLines?_outside areBreaks outside starts, Option.bind_some, ← Nat.add_assoc,
    blockLines?_end outside]
  cases kind with
  | strip => cases ends
  | clip => cases ends
  | keep => rfl

/-- The lines of a text are read behind the line breaks in front of them. -/
theorem block?_of_isMarked (printable : ∀ c ∈ text, isPrintable c = true) (nonempty : text ≠ [])
    (ends : chomping text = kind.mark) (outside : count < parent + 2) (starts : StartsWord rest)
    (index line : Nat)
    (enough : (blockTail (parent + 2) true text ++ behindLines text count rest).length < fuel) :
    ∃ index' line', line ≤ line' ∧
      ((emptyLines? (some (parent + 2)) fuel [] 0
          ⟨blockTail (parent + 2) true text ++ behindLines text count rest, index, line, 0⟩).bind
        fun gap => blockLines? true kind (parent + 2) fuel [] [] false gap) =
      some (text, ⟨rest, index' + count, line', count⟩) := by
  obtain ⟨breaks, lines, rfl, areBreaks, isLines⟩ := exists_isLines printable
  rcases isLines with rfl | isLines
  · rw [List.append_nil] at *
    exact block?_breaks areBreaks nonempty ends outside starts index line enough
  · have written : blockTail (parent + 2) true (breaks ++ lines) ++
        behindLines (breaks ++ lines) count rest =
        breaks ++ (blanks (parent + 2) ++
          (blockTail (parent + 2) false lines ++ behindLines lines count rest)) := by
      rw [blockTail_breaks _ areBreaks, blockTail_lines _ isLines, behindLines,
        lineEnd_append isLines, behindLines]
      simp
    rw [chomping_append isLines] at ends
    rw [written] at enough ⊢
    simp only [List.length_append, length_blanks] at enough
    obtain ⟨fuel, rfl⟩ : ∃ less, fuel = breaks.length + (less + 1) :=
      ⟨fuel - breaks.length - 1, by omega⟩
    obtain ⟨index', line', later, read⟩ := readsLines outside starts isLines ends [] [] breaks false
      (max 0 (parent + 2)) (breaks.length + (fuel + 1)) (index + breaks.length + (parent + 2))
      (line + breaks.length) (by simp only [List.length_append]; omega)
    refine ⟨index', line', by omega, ?_⟩
    rw [emptyLines?_inside areBreaks isLines, Option.bind_some, read]
    simp

/-- The first line of a text tells how far the text is indented. -/
theorem block?_of_not_isMarked (printable : ∀ c ∈ text, isPrintable c = true)
    (nonempty : text ≠ []) (unmarked : isMarked text = false) (ends : chomping text = kind.mark)
    (outside : count < parent + 2) (starts : StartsWord rest) (index line : Nat)
    (enough : (blockTail (parent + 2) true text ++ behindLines text count rest).length < fuel) :
    ∃ index' line', line ≤ line' ∧
      ((emptyLines? none fuel [] 0
          ⟨blockTail (parent + 2) true text ++ behindLines text count rest, index, line, 0⟩).bind
        fun gap => blockLines? true kind (max gap.deepest (max ((parent : Int) + 1) 1).toNat) fuel
          [] [] false gap) =
      some (text, ⟨rest, index' + count, line', count⟩) := by
  obtain ⟨c, characters, rfl⟩ := List.exists_cons_of_ne_nil nonempty
  have first := printable c List.mem_cons_self
  obtain ⟨notBlank, notBreak⟩ : c ≠ ' ' ∧ isBreak c = false := by
    simpa [isMarked] using unmarked
  have isLines : IsLines (c :: characters) := by
    obtain ⟨breaks, lines, same, areBreaks, isLines⟩ := exists_isLines printable
    cases breaks with
    | nil => exact same ▸ isLines.resolve_left fun empty => by simp [empty] at same
    | cons lineBreak breaks =>
        obtain ⟨rfl, -⟩ := List.cons.inj same
        exact absurd (areBreaks c List.mem_cons_self).1 (by simp [notBreak])
  have startsLine : StartsWord (blockTail (parent + 2) false (c :: characters) ++
      behindLines (c :: characters) count rest) := by
    rw [blockTail_cons _ notBreak]
    rintro other ⟨⟩
    exact ⟨by simpa [isWhite_eq_of_isPrintable first] using notBlank, notBreak⟩
  rw [blockTail_lines _ isLines, List.append_assoc] at enough ⊢
  rw [List.length_append, length_blanks] at enough
  obtain ⟨fuel, rfl⟩ := Nat.exists_eq_add_of_le' (show 1 ≤ fuel by omega)
  have indent : max (max 0 (parent + 2)) (max ((parent : Int) + 1) 1).toNat = parent + 2 := by
    omega
  obtain ⟨index', line', later, read⟩ := readsLines outside starts isLines ends [] [] [] false
    (max 0 (parent + 2)) (fuel + 1) (index + (parent + 2)) line (by omega)
  refine ⟨index', line', Nat.le_of_lt later, ?_⟩
  rw [emptyLines?_first startsLine, Option.bind_some]
  simp only [indent]
  exact read

end

/-- A text that is written as a block of lines is read back. -/
theorem block?_writeText {parent count fuel : Nat} {text : String} {rest : List Char}
    (style : styleOf text = .lines) (outside : count < parent + 2) (starts : StartsWord rest)
    (index line column : Nat)
    (enough : (writeText (parent + 2) text ++ behindLines text.toList count rest).length < fuel) :
    ∃ index' line', line < line' ∧
      block? true parent fuel
          ⟨writeText (parent + 2) text ++ behindLines text.toList count rest, index, line, column⟩ =
        some (text.toList, ⟨rest, index' + count, line', count⟩) := by
  have allowed := (allowsLines_of_styleOf style).1
  simp only [allowsLines, needsEscapes, Bool.and_eq_true, decide_eq_true_eq, Bool.not_eq_true',
    Bool.or_eq_false_iff, List.any_eq_false] at allowed
  obtain ⟨nonempty, ⟨escapes, -⟩, -⟩ := allowed
  have printable (c : Char) (member : c ∈ text.toList) : isPrintable c = true := by
    simpa using escapes c member
  obtain ⟨kind, ends⟩ := exists_chomping text.toList
  have written : writeText (parent + 2) text ++ behindLines text.toList count rest =
      '|' :: ((if isMarked text.toList then ['2'] else []) ++ (kind.mark ++ '\n' ::
        (blockTail (parent + 2) true text.toList ++ behindLines text.toList count rest))) := by
    simp [writeText, style, header_eq, ends]
  rw [written] at enough ⊢
  have short : (blockTail (parent + 2) true text.toList ++
      behindLines text.toList count rest).length < fuel := by
    simp only [List.length_cons, List.length_append] at enough ⊢
    omega
  obtain ⟨headIndex, headColumn, head⟩ := header?_mark kind (isMarked text.toList)
    (blockTail (parent + 2) true text.toList ++ behindLines text.toList count rest) (index + 1) line
    (column + 1)
  rw [block?, Cursor.next]
  simp only [head, Option.bind_eq_bind, Option.bind_some, emptyLine?_feed]
  cases marked : isMarked text.toList with
  | true =>
      obtain ⟨index', line', later, read⟩ := block?_of_isMarked printable nonempty ends outside
        starts (headIndex + 1) (line + 1) short
      have indent : (max (parent : Int) 0).toNat + 2 = parent + 2 := by omega
      refine ⟨index', line', later, ?_⟩
      simp only [if_true, Option.map_some, indent, Option.getD_some]
      exact read
  | false =>
      obtain ⟨index', line', later, read⟩ := block?_of_not_isMarked printable nonempty marked ends
        outside starts (headIndex + 1) (line + 1) short
      refine ⟨index', line', later, ?_⟩
      simp only [Bool.false_eq_true, if_false, Option.map_none, Option.getD_none]
      exact read

/-- A block of lines has a line feed of its own only behind a text without one. -/
theorem endLine_lines {text : String} (style : styleOf text = .lines) (indent : Nat) :
    endLine (writeText indent text) = writeText indent text ++ lineEnd text.toList := by
  have nonempty : text.toList ≠ [] := by
    have allowed := (allowsLines_of_styleOf style).1
    simp only [allowsLines, Bool.and_eq_true, decide_eq_true_eq] at allowed
    exact allowed.1
  have last : (writeText indent text).getLast? = text.toList.getLast? := by
    have written : writeText indent text =
        (header text.toList ++ ['\n']) ++ blockTail indent true text.toList := by
      simp [writeText, style]
    rw [written, List.getLast?_append, getLast?_blockTail indent nonempty,
      List.getLast?_eq_some_getLast nonempty]
    rfl
  rw [endLine, last, lineEnd]
  split <;> simp

end Lexeme

end DeployTarget.Yaml
