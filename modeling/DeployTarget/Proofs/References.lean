import DeployTarget.Proofs.Interpolation
import Mathlib.Data.List.TakeWhile

/-!
# References alone and in a text

A reference has a value in a text if it has one when it is the whole text, except that a
reference to the outputs as such is written as no text where the outputs are null, while null
is no value of a whole text.
-/

namespace DeployTarget

/-! ## Blanks around a text -/

namespace Text

/-- A text is its trimmed text with blanks around it. -/
theorem exists_blanks (text : List Char) :
    ∃ front behind, text = front ++ trimmed text ++ behind ∧
      ∀ c ∈ front ++ behind, isBlank c = true := by
  refine ⟨text.takeWhile isBlank,
    ((text.dropWhile isBlank).reverse.takeWhile isBlank).reverse, ?_, ?_⟩
  · rw [trimmed, trimEnd, List.append_assoc, ← List.reverse_append, List.takeWhile_append_dropWhile,
      List.reverse_reverse, List.takeWhile_append_dropWhile]
  · intro c member
    rcases List.mem_append.mp member with first | last
    · exact List.mem_takeWhile_imp first
    · exact List.mem_takeWhile_imp (List.mem_reverse.mp last)

theorem mem_trimmed_of_mem {c : Char} {text : List Char} (plain : isBlank c = false)
    (member : c ∈ text) : c ∈ trimmed text := by
  obtain ⟨front, behind, parts, blanks⟩ := exists_blanks text
  rw [parts, List.append_assoc, List.mem_append, List.mem_append] at member
  have noBlank : c ∉ front ++ behind := fun blank => by simp [blanks c blank] at plain
  rcases member with first | middle | last
  · exact absurd (List.mem_append_left _ first) noBlank
  · exact middle
  · exact absurd (List.mem_append_right _ last) noBlank

theorem trimmed_eq_self {first last : Char} (middle : List Char)
    (begins : isBlank first = false) (ends : isBlank last = false) :
    trimmed (first :: middle ++ [last]) = first :: middle ++ [last] := by
  rw [trimmed, List.cons_append, List.dropWhile_cons_of_neg (by simp [begins]), trimEnd,
    ← List.cons_append, List.reverse_append, List.reverse_singleton, List.singleton_append,
    List.dropWhile_cons_of_neg (by simp [ends]), List.reverse_cons, List.reverse_reverse]

end Text

namespace Template

/-! ## Closed texts -/

/-- Whether each reference that is opened in a text is closed. -/
def Closed (text : List Char) : Prop :=
  Piece.unclosed ∉ pieces text

theorem unopened_of_not_mem {text : List Char} (plain : '<' ∉ text) : Unopened text :=
  fun opened => plain (opened.subset List.mem_cons_self)

theorem closed_unopened {text : List Char} (unopened : Unopened text) : Closed text := by
  simp [Closed, pieces_unopened unopened]

theorem closed_reference {plain inner : List Char} (unopened : Unopened plain)
    (noClose : '>' ∉ inner) (rest : List Char) :
    Closed (plain ++ '<' :: '+' :: inner ++ '>' :: rest) ↔ Closed rest := by
  rw [Closed, pieces_reference unopened noClose]
  simp [Closed]

theorem noClose_of_mem_references {text inner : List Char} (member : inner ∈ references text) :
    '>' ∉ inner := by
  induction text using text_induction with
  | plain text unopened => simp [references_unopened unopened] at member
  | unclosed plain first unopened noClose => simp [references_unclosed unopened noClose] at member
  | reference plain first rest unopened noClose ih =>
      rw [references_reference unopened noClose, List.mem_cons] at member
      rcases member with rfl | later
      · exact noClose
      · exact ih later

/-- Pieces are filled if and only if every reference is closed and has a text. -/
theorem exists_fill_iff (value? : List Char → Option (List Char)) (written : Nat)
    (pieces : List Piece) :
    (∃ filled, fill value? written pieces = .ok (some filled)) ↔
      .unclosed ∉ pieces ∧ ∀ inner ∈ pieces.filterMap Piece.inner?, (value? inner).isSome := by
  have of_prepend (front : List Char) (filled : Except Nat (Option (List Char))) :
      (∃ text, prepend front filled = .ok (some text)) ↔ ∃ text, filled = .ok (some text) := by
    rcases filled with offset | (_ | text) <;> simp
  induction pieces generalizing written with
  | nil => simp [fill]
  | cons piece rest ih =>
      cases piece with
      | character c =>
          have first : fill value? written (.character c :: rest) =
              prepend [c] (fill value? (written + c.utf8Size) rest) := rfl
          rw [first, of_prepend]
          simp [ih, Piece.inner?]
      | unclosed => simp [fill]
      | reference inner =>
          cases known : value? inner with
          | none => simp [fill, known, Piece.inner?]
          | some text =>
              have first : fill value? written (.reference inner :: rest) =
                  prepend text (fill value? (written + byteLength text) rest) := by
                rw [fill, known]
                rfl
              rw [first, of_prepend]
              simp [ih, Piece.inner?, known]

end Template

namespace Outputs

open Template

/-! ## Values of references -/

/-- Whether a reference is to the outputs as such, and these are null. -/
def IsNullRoot (outputs : Outputs) (inner : List Char) : Prop :=
  Text.trimmed inner = root.toList ∧ outputs.document.isNull = true

theorem reference?_root {outputs : Outputs} {inner : List Char}
    (toRoot : Text.trimmed inner = root.toList) :
    outputs.reference? inner = some outputs.document := by
  rw [reference?, toRoot]
  rfl

theorem isNull_of_reference? {outputs : Outputs} {inner : List Char} {value : Json}
    (known : outputs.reference? inner = some value)
    (inside : Text.trimmed inner ≠ root.toList) : value.isNull = false := by
  simp only [reference?, Option.bind_eq_bind, Option.bind_eq_some_iff,
    List.isPrefixOf?_eq_some_iff_append_eq] at known
  obtain ⟨path, parts, known⟩ := known
  split at known
  · exact absurd (by rw [← parts, List.append_nil]) inside
  · obtain ⟨found, -, known⟩ := Option.bind_eq_some_iff.mp known
    split at known
    · cases known
    · cases known
      simpa using ‹¬value.isNull = true›
  · cases known

/-- Whether a reference has a value.  Null is no value. -/
def HasValue (outputs : Outputs) (inner : List Char) : Prop :=
  ∃ value, outputs.reference? inner = some value ∧ value.isNull = false

theorem isSome_reference?_iff (outputs : Outputs) (inner : List Char) :
    (outputs.reference? inner).isSome ↔ outputs.HasValue inner ∨ outputs.IsNullRoot inner := by
  constructor
  · intro known
    obtain ⟨value, known⟩ := Option.isSome_iff_exists.mp known
    by_cases toRoot : Text.trimmed inner = root.toList
    · obtain rfl : outputs.document = value :=
        Option.some.inj ((reference?_root toRoot).symm.trans known)
      cases null : outputs.document.isNull with
      | true => exact .inr ⟨toRoot, null⟩
      | false => exact .inl ⟨_, known, null⟩
    · exact .inl ⟨value, known, isNull_of_reference? known toRoot⟩
  · rintro (⟨value, known, -⟩ | ⟨toRoot, -⟩)
    · rw [known]
      rfl
    · rw [reference?_root toRoot]
      rfl

theorem not_hasValue_of_isNullRoot {outputs : Outputs} {inner : List Char}
    (nullRoot : outputs.IsNullRoot inner) : ¬outputs.HasValue inner := by
  rintro ⟨value, known, present⟩
  rw [reference?_root nullRoot.1] at known
  cases known
  rw [nullRoot.2] at present
  cases present

/-- A reference with a character that the root does not have is not to the root. -/
theorem not_isNullRoot_of_mem {outputs : Outputs} {c : Char} {inner : List Char}
    (plain : Text.isBlank c = false) (other : c ∉ root.toList) (member : c ∈ inner) :
    ¬outputs.IsNullRoot inner := by
  intro nullRoot
  have kept := Text.mem_trimmed_of_mem plain member
  rw [nullRoot.1] at kept
  exact other kept

/-! ## Texts with a value -/

/-- Whether an expression has a value.  Null is no value. -/
def Resolves (outputs : Outputs) (expression : String) : Prop :=
  ∃ value, outputs.lookup expression = .ok (some value) ∧ value.isNull = false

theorem lookup_whole (outputs : Outputs) {expression : String} {inner : List Char}
    (whole : IsWhole expression.toList inner) :
    outputs.lookup expression = .ok (outputs.reference? inner) := by
  rw [lookup, whole?_eq_some_iff.mpr whole]

theorem resolves_whole_iff (outputs : Outputs) {expression : String} {inner : List Char}
    (whole : IsWhole expression.toList inner) :
    outputs.Resolves expression ↔ outputs.HasValue inner := by
  rw [Resolves, HasValue, lookup_whole outputs whole]
  simp

/-- A text that is one reference has no other one. -/
theorem IsWhole.references_eq {text inner : List Char} (whole : IsWhole text inner) :
    Closed text ∧ references text = [inner] := by
  obtain ⟨cut, -, noClose⟩ := whole
  obtain ⟨front, behind, parts, blanks⟩ := Text.exists_blanks text
  have plain : '<' ∉ front ++ behind := fun member => absurd (blanks _ member) (by decide)
  rw [List.mem_append, not_or] at plain
  have before := unopened_of_not_mem plain.1
  have after := unopened_of_not_mem plain.2
  rw [cut] at parts
  have parts : text = front ++ '<' :: '+' :: inner ++ '>' :: behind := by simpa using parts
  rw [parts, closed_reference before noClose, references_reference before noClose,
    references_unopened after]
  exact ⟨closed_unopened after, rfl⟩

/-- An answer is a value if and only if the pieces are filled. -/
theorem exists_answer_iff (expression : String) (filled : Except Nat (Option (List Char))) :
    (∃ value, answer expression filled = .ok (some value) ∧ value.isNull = false) ↔
      ∃ text, filled = .ok (some text) := by
  rcases filled with offset | (_ | text) <;> simp [answer, Json.isNull]

/-- A text that is not one reference has a value if and only if its references have texts. -/
theorem resolves_embedded_iff (outputs : Outputs) {expression : String}
    (embedded : ∀ inner, ¬IsWhole expression.toList inner) :
    outputs.Resolves expression ↔
      Closed expression.toList ∧
        ∀ inner ∈ references expression.toList,
          outputs.HasValue inner ∨ outputs.IsNullRoot inner := by
  have filled := exists_fill_iff outputs.text? 0 (pieces expression.toList)
  simp only [text?, Option.isSome_map, isSome_reference?_iff] at filled
  rw [Resolves, (lookup_eq_answer outputs expression embedded).1, exists_answer_iff]
  exact filled

/-- The text that is one reference. -/
def alone (inner : List Char) : String :=
  String.ofList ('<' :: '+' :: inner ++ ['>'])

theorem isWhole_alone_iff {inner other : List Char} (noClose : '>' ∉ inner) :
    IsWhole (alone inner).toList other ↔ other = inner ∧ '<' ∉ inner := by
  have trimmed : Text.trimmed (alone inner).toList = '<' :: '+' :: inner ++ ['>'] := by
    rw [alone, String.toList_ofList]
    exact Text.trimmed_eq_self ('+' :: inner) (by decide) (by decide)
  rw [IsWhole, trimmed]
  constructor
  · rintro ⟨cut, plain, -⟩
    obtain rfl : inner = other := by simpa using cut
    exact ⟨rfl, plain⟩
  · rintro ⟨rfl, plain⟩
    exact ⟨rfl, plain, noClose⟩

/-- A reference has a value if and only if it has one as a text. -/
theorem resolves_alone_iff (outputs : Outputs) {inner : List Char} (noClose : '>' ∉ inner) :
    outputs.Resolves (alone inner) ↔ outputs.HasValue inner := by
  by_cases opened : '<' ∈ inner
  · -- The text is searched for references, and this one is found.
    have embedded (other : List Char) : ¬IsWhole (alone inner).toList other :=
      fun whole => ((isWhole_alone_iff noClose).mp whole).2 opened
    have single : (alone inner).toList = [] ++ '<' :: '+' :: inner ++ '>' :: [] :=
      String.toList_ofList
    rw [resolves_embedded_iff outputs embedded, single, closed_reference unopened_nil noClose,
      references_reference unopened_nil noClose, references_unopened unopened_nil]
    have notRoot : ¬outputs.IsNullRoot inner :=
      not_isNullRoot_of_mem (by decide) (by decide) opened
    simp [closed_unopened unopened_nil, notRoot]
  · exact resolves_whole_iff outputs ((isWhole_alone_iff noClose).mpr ⟨rfl, opened⟩)

/-- A text has a value if and only if its references are closed and each of them has a value
alone, or is to the outputs as such and these are null.  The latter has no value alone. -/
theorem resolves_iff (outputs : Outputs) (expression : String) :
    (outputs.Resolves expression ↔
      Closed expression.toList ∧
        ∀ inner ∈ references expression.toList,
          outputs.Resolves (alone inner) ∨
            outputs.IsNullRoot inner ∧ ¬IsWhole expression.toList inner) ∧
      ∀ inner, outputs.IsNullRoot inner → ¬outputs.Resolves (alone inner) := by
  constructor
  · have alone_iff (inner : List Char) (member : inner ∈ references expression.toList) :=
      resolves_alone_iff outputs (noClose_of_mem_references member)
    by_cases isWhole : ∃ inner, IsWhole expression.toList inner
    · obtain ⟨inner, whole⟩ := isWhole
      obtain ⟨closed, single⟩ := whole.references_eq
      rw [single] at alone_iff ⊢
      simp [closed, whole, resolves_whole_iff outputs whole, alone_iff inner]
    · have embedded := not_exists.mp isWhole
      rw [resolves_embedded_iff outputs embedded]
      refine and_congr_right fun _ => forall₂_congr fun inner member => ?_
      simp [alone_iff inner member, embedded inner]
  · intro inner nullRoot
    have noClose : '>' ∉ inner := fun closed =>
      not_isNullRoot_of_mem (by decide) (by decide) closed nullRoot
    rw [resolves_alone_iff outputs noClose]
    exact not_hasValue_of_isNullRoot nullRoot

/-- Over null outputs a text has a value although its reference has none alone. -/
theorem resolves_beside_nullRoot :
    let outputs : Outputs := ⟨.null⟩
    outputs.lookup "ns-<+provisioner>" = .ok (some (.string "ns-")) ∧
      references "ns-<+provisioner>".toList = ["provisioner".toList] ∧
      outputs.lookup (alone "provisioner".toList) = .ok (some .null) :=
  ⟨rfl, rfl, rfl⟩

end Outputs

end DeployTarget
