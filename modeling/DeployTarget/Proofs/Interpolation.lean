import DeployTarget.Expression.Outputs
import DeployTarget.Proofs.Pieces
import Mathlib.Data.List.Basic

/-!
# Replacing references in place

The references of a text are replaced one round after the other.  Between two rounds the
text is what has been written, up to the position where the search goes on, and behind it
the rest as it was.  What is written is never searched, so the rounds come to what the pieces
of the text are filled to.  Counted in bytes no round cuts a character or leaves the text,
and there is one round for each reference and a last one.
-/

namespace DeployTarget.Substitution

open Template

/-! ## Positions in characters -/

theorem positionOf?_unopened {text : List Char} (unopened : Unopened text) :
    opening?.positionOf? text = none := by
  induction text with
  | nil => rfl
  | cons c rest ih =>
      obtain ⟨plain, others⟩ := unopened_cons.mp unopened
      rw [opening?.positionOf?, ih others]
      · rfl
      · rintro tail rfl rfl
        exact plain ⟨rfl, rfl⟩

theorem positionOf?_opening {plain : List Char} (unopened : Unopened plain)
    (behind : List Char) :
    opening?.positionOf? (plain ++ '<' :: '+' :: behind) = some plain.length := by
  induction plain with
  | nil => rfl
  | cons c plain ih =>
      obtain ⟨first, others⟩ := unopened_cons.mp unopened
      rw [List.cons_append, opening?.positionOf?, ih others]
      · rfl
      · rintro tail rfl opened
        cases plain with
        | nil => cases opened
        | cons other plain => exact first ⟨rfl, by cases opened; rfl⟩

theorem opening?_append (front behind : List Char) :
    opening? (front ++ behind) front.length =
      (opening?.positionOf? behind).map (front.length + ·) := by
  rw [opening?, List.drop_left]

theorem closing?_append (front behind : List Char) :
    closing? (front ++ behind) front.length =
      (behind.findIdx? (· == '>')).map (front.length + ·) := by
  rw [closing?, List.drop_left]

theorem findIdx?_of_noClose {inner : List Char} (noClose : '>' ∉ inner) :
    inner.findIdx? (· == '>') = none := by
  rw [List.findIdx?_eq_none_iff]
  rintro c member
  exact beq_eq_false_iff_ne.mpr fun same => noClose (same ▸ member)

theorem findIdx?_close {inner : List Char} (noClose : '>' ∉ inner) (rest : List Char) :
    (inner ++ '>' :: rest).findIdx? (· == '>') = some inner.length := by
  rw [List.findIdx?_append, findIdx?_of_noClose noClose, List.findIdx?_cons]
  simp

/-! ## Rounds, with positions in characters -/

section Rounds

variable (value? : List Char → Option (List Char)) (written : List Char)

theorem substituteFrom_unopened {text : List Char} (unopened : Unopened text) (fuel : Nat) :
    substituteFrom value? fuel (written ++ text) written.length = .ok (some (written ++ text)) := by
  cases fuel with
  | zero => rfl
  | succ fuel => rw [substituteFrom, opening?_append, positionOf?_unopened unopened]; rfl

theorem substituteFrom_unclosed {plain inner : List Char} (unopened : Unopened plain)
    (noClose : '>' ∉ inner) (fuel : Nat) :
    substituteFrom value? (fuel + 1) (written ++ plain ++ '<' :: '+' :: inner) written.length =
      .error (byteLength (written ++ plain)) := by
  have unclosed : '>' ∉ '<' :: '+' :: inner := by simpa using noClose
  have opening : opening? (written ++ plain ++ '<' :: '+' :: inner) written.length =
      some (written ++ plain).length := by
    rw [List.append_assoc, opening?_append, positionOf?_opening unopened, Option.map_some,
      List.length_append]
  rw [substituteFrom, opening]
  simp only [closing?_append, findIdx?_of_noClose unclosed, Option.map_none, List.take_left]

/-- One round replaces the first reference, and the search goes on behind its text. -/
theorem substituteFrom_reference {plain inner : List Char} (unopened : Unopened plain)
    (noClose : '>' ∉ inner) (rest : List Char) (fuel : Nat) :
    substituteFrom value? (fuel + 1) (written ++ plain ++ '<' :: '+' :: inner ++ '>' :: rest)
        written.length =
      match value? inner with
      | none => .ok none
      | some value =>
          substituteFrom value? fuel (written ++ plain ++ value ++ rest)
            (written ++ plain ++ value).length := by
  have opening : opening? (written ++ plain ++ '<' :: '+' :: inner ++ '>' :: rest)
      written.length = some (written ++ plain).length := by
    rw [List.append_assoc, List.append_assoc, opening?_append, List.cons_append,
      List.cons_append, positionOf?_opening unopened, Option.map_some, List.length_append]
  have closing : closing? (written ++ plain ++ '<' :: '+' :: inner ++ '>' :: rest)
      (written ++ plain).length = some (written ++ plain ++ '<' :: '+' :: inner).length := by
    have unclosed : '>' ∉ '<' :: '+' :: inner := by simpa using noClose
    rw [List.append_assoc _ ('<' :: _), closing?_append, findIdx?_close unclosed,
      Option.map_some, ← List.length_append]
  have between : (written ++ plain ++ '<' :: '+' :: inner).drop ((written ++ plain).length + 2) =
      inner := by
    rw [List.drop_length_add_append]
    rfl
  have spliced (value : List Char) :
      splice (written ++ plain ++ '<' :: '+' :: inner ++ '>' :: rest) (written ++ plain).length
          ((written ++ plain ++ '<' :: '+' :: inner).length + 1) value =
        written ++ plain ++ value ++ rest := by
    rw [splice, List.drop_length_add_append, List.append_assoc _ ('<' :: _), List.take_left]
    rfl
  rw [substituteFrom, opening]
  cases known : value? inner with
  | none => simp only [closing, List.take_left, between, known]
  | some value =>
      simp only [closing, List.take_left, between, known, spliced, ← List.length_append]

/-- The rounds come to what the pieces of a text are filled to. -/
theorem substituteFrom_append (text : List Char) {fuel : Nat} (enough : text.length ≤ fuel) :
    substituteFrom value? fuel (written ++ text) written.length =
      prepend written (fill value? (byteLength written) (pieces text)) := by
  induction text using text_induction generalizing written fuel with
  | plain text unopened =>
      rw [substituteFrom_unopened value? written unopened, fill_unopened _ _ unopened, prepend_some]
  | unclosed plain inner unopened noClose =>
      simp only [List.length_append, List.length_cons] at enough
      obtain ⟨fuel, rfl⟩ := Nat.exists_eq_add_one.mpr (by omega : 0 < fuel)
      rw [← List.append_assoc, substituteFrom_unclosed value? written unopened noClose,
        fill_unclosed _ _ unopened noClose, prepend_error, byteLength_append]
  | reference plain inner rest unopened noClose ih =>
      simp only [List.length_append, List.length_cons] at enough
      obtain ⟨fuel, rfl⟩ := Nat.exists_eq_add_one.mpr (by omega : 0 < fuel)
      rw [← List.append_assoc, ← List.append_assoc,
        substituteFrom_reference value? written unopened noClose]
      cases known : value? inner with
      | none => rw [fill_reference_of_none _ _ unopened noClose known, prepend_none]
      | some value =>
          rw [fill_reference_of_some _ _ unopened noClose known, prepend_prepend]
          simp only
          rw [ih _ (by omega), List.append_assoc, byteLength_append]

end Rounds

/-! ## Rounds, with offsets in bytes -/

/-- What a round comes to. -/
inductive Round where
  /-- No reference is left. -/
  | finished
  /-- A reference is opened at an offset and not closed. -/
  | unclosed (offset : Nat)
  /-- A reference has no text. -/
  | unknown
  /-- A reference has been replaced, and the search goes on at an offset. -/
  | replaced (text : List Char) (start : Nat)
deriving DecidableEq, Repr

/-- What a round makes of the reference that is opened at an offset. -/
def replaceAt? (value? : List Char → Option (List Char)) (text : List Char) (opening : Nat) :
    Option Round := do
  let (_, opened) ← Text.cutAt? text opening
  match opened.findIdx? (· == '>') with
  | none => return .unclosed opening
  | some position =>
      let closing := opening + byteLength (opened.take position) + 1
      let inner ← Text.slice? text (opening + 2) (closing - 1)
      match value? inner with
      | none => return .unknown
      | some value =>
          let text ← Text.replaceSlice? text opening closing value
          return .replaced text (opening + byteLength value)

/-- One round from an offset on.  There is none where it would have to look behind the end of
the text or into a character. -/
def round? (value? : List Char → Option (List Char)) (text : List Char) (start : Nat) :
    Option Round := do
  let (_, ahead) ← Text.cutAt? text start
  match opening?.positionOf? ahead with
  | none => return .finished
  | some position => replaceAt? value? text (start + byteLength (ahead.take position))

/-- What at most a number of rounds come to, if they come to an end. -/
def replaceAll? (value? : List Char → Option (List Char)) :
    Nat → List Char → Nat → Option (Except Nat (Option (List Char)))
  | 0, _, _ => none
  | rounds + 1, text, start => do
      match ← round? value? text start with
      | .finished => return .ok (some text)
      | .unclosed offset => return .error offset
      | .unknown => return .ok none
      | .replaced text start => replaceAll? value? rounds text start

section ByteRounds

variable (value? : List Char → Option (List Char))

theorem replaceAt?_unclosed (front : List Char) {inner : List Char} (noClose : '>' ∉ inner) :
    replaceAt? value? (front ++ '<' :: '+' :: inner) (byteLength front) =
      some (.unclosed (byteLength front)) := by
  have unclosed : '>' ∉ '<' :: '+' :: inner := by simpa using noClose
  simp only [replaceAt?, Text.cutAt?_append, Option.bind_eq_bind, Option.bind_some,
    findIdx?_of_noClose unclosed, Option.pure_def]

theorem replaceAt?_reference (front : List Char) {inner : List Char} (noClose : '>' ∉ inner)
    (rest : List Char) :
    replaceAt? value? (front ++ ('<' :: '+' :: inner ++ '>' :: rest)) (byteLength front) =
      some (match value? inner with
        | none => .unknown
        | some value => .replaced (front ++ value ++ rest) (byteLength (front ++ value))) := by
  have unclosed : '>' ∉ '<' :: '+' :: inner := by simpa using noClose
  -- The marks have one byte each.
  have opening : byteLength (front ++ ['<', '+']) = byteLength front + 2 := byteLength_append _ _
  have sliced : Text.slice? (front ++ ('<' :: '+' :: inner ++ '>' :: rest)) (byteLength front + 2)
      (byteLength (front ++ '<' :: '+' :: inner) + 1 - 1) = some inner :=
    Text.slice?_eq_some (front ++ ['<', '+']) inner ('>' :: rest) (by simp) opening (by simp)
  have replaced (value : List Char) :
      Text.replaceSlice? (front ++ ('<' :: '+' :: inner ++ '>' :: rest)) (byteLength front)
          (byteLength (front ++ '<' :: '+' :: inner) + 1) value =
        some (front ++ value ++ rest) :=
    Text.replaceSlice?_eq_some front ('<' :: '+' :: inner ++ ['>']) rest (by simp) rfl
      (by rw [← List.append_assoc, byteLength_append]; rfl) value
  simp only [replaceAt?, Text.cutAt?_append, Option.bind_eq_bind, Option.bind_some,
    findIdx?_close unclosed, List.take_left, ← byteLength_append, sliced]
  cases value? inner with
  | none => rfl
  | some value => simp only [replaced, Option.bind_some, Option.pure_def]

theorem round?_unopened (written : List Char) {text : List Char} (unopened : Unopened text) :
    round? value? (written ++ text) (byteLength written) = some .finished := by
  simp only [round?, Text.cutAt?_append, positionOf?_unopened unopened, Option.bind_eq_bind,
    Option.bind_some, Option.pure_def]

/-- A round goes to the first opening behind its offset. -/
theorem round?_opening (written : List Char) {plain : List Char} (unopened : Unopened plain)
    (behind : List Char) :
    round? value? (written ++ (plain ++ '<' :: '+' :: behind)) (byteLength written) =
      replaceAt? value? (written ++ plain ++ '<' :: '+' :: behind)
        (byteLength (written ++ plain)) := by
  simp only [round?, Text.cutAt?_append, positionOf?_opening unopened, Option.bind_eq_bind,
    Option.bind_some, List.take_left, byteLength_append, List.append_assoc]

theorem round?_unclosed (written : List Char) {plain inner : List Char}
    (unopened : Unopened plain) (noClose : '>' ∉ inner) :
    round? value? (written ++ (plain ++ '<' :: '+' :: inner)) (byteLength written) =
      some (.unclosed (byteLength (written ++ plain))) := by
  rw [round?_opening value? written unopened, replaceAt?_unclosed value? _ noClose]

/-- A round replaces the first reference, and the search goes on behind its text. -/
theorem round?_reference (written : List Char) {plain inner : List Char}
    (unopened : Unopened plain) (noClose : '>' ∉ inner) (rest : List Char) :
    round? value? (written ++ (plain ++ '<' :: '+' :: inner ++ '>' :: rest))
        (byteLength written) =
      some (match value? inner with
        | none => .unknown
        | some value =>
            .replaced (written ++ plain ++ value ++ rest)
              (byteLength (written ++ plain ++ value))) := by
  rw [List.append_assoc plain, List.cons_append, List.cons_append,
    round?_opening value? written unopened]
  exact replaceAt?_reference value? (written ++ plain) noClose rest

/-- With a round for each reference and one more, the rounds come to what the pieces of a text
are filled to. -/
theorem replaceAll?_append (written text : List Char) {rounds : Nat}
    (enough : (references text).length < rounds) :
    replaceAll? value? rounds (written ++ text) (byteLength written) =
      some (prepend written (fill value? (byteLength written) (pieces text))) := by
  induction text using text_induction generalizing written rounds with
  | plain text unopened =>
      obtain ⟨rounds, rfl⟩ := Nat.exists_eq_add_one.mpr (Nat.zero_lt_of_lt enough)
      rw [replaceAll?, round?_unopened _ _ unopened, fill_unopened _ _ unopened, prepend_some]
      rfl
  | unclosed plain inner unopened noClose =>
      obtain ⟨rounds, rfl⟩ := Nat.exists_eq_add_one.mpr (Nat.zero_lt_of_lt enough)
      rw [replaceAll?, round?_unclosed _ _ unopened noClose, fill_unclosed _ _ unopened noClose,
        prepend_error, byteLength_append]
      rfl
  | reference plain inner rest unopened noClose ih =>
      obtain ⟨rounds, rfl⟩ := Nat.exists_eq_add_one.mpr (Nat.zero_lt_of_lt enough)
      rw [references_reference unopened noClose, List.length_cons] at enough
      rw [replaceAll?, round?_reference _ _ unopened noClose]
      cases known : value? inner with
      | none =>
          rw [fill_reference_of_none _ _ unopened noClose known, prepend_none]
          rfl
      | some value =>
          have later := ih (written ++ plain ++ value) (Nat.lt_of_succ_lt_succ enough)
          rw [List.append_assoc written] at later
          rw [fill_reference_of_some _ _ unopened noClose known, prepend_prepend,
            ← byteLength_append]
          simpa only [List.append_assoc, Option.bind_eq_bind, Option.bind_some] using later

end ByteRounds

end DeployTarget.Substitution

namespace DeployTarget.Outputs

open Template

/-- The text of a reference, by the characters between its marks. -/
def text? (outputs : Outputs) (inner : List Char) : Option (List Char) :=
  (outputs.reference? inner).map fun value => value.rendered.toList

/-- The answer for an expression whose pieces have been filled. -/
def answer (expression : String) :
    Except Nat (Option (List Char)) → Except Error (Option Json)
  | .ok text => .ok (text.map fun characters => .string (String.ofList characters))
  | .error offset => .error (.resolution expression (.unclosed offset))

/-- Whether a text is one reference: blanks apart, nothing but two marks and what lies between
them, where no mark begins or ends. -/
def IsWhole (text inner : List Char) : Prop :=
  Text.trimmed text = '<' :: '+' :: inner ++ ['>'] ∧ '<' ∉ inner ∧ '>' ∉ inner

theorem whole?_eq_some_iff {text inner : List Char} :
    whole? text = some inner ↔ IsWhole text inner := by
  simp only [whole?, Option.bind_eq_bind, Option.bind_eq_some_iff,
    List.isPrefixOf?_eq_some_iff_append_eq, List.isSuffixOf?_eq_some_iff_append_eq]
  constructor
  · rintro ⟨opened, starts, between, ends, kept⟩
    split at kept
    · cases kept
    · cases kept
      exact ⟨by rw [← starts, ← ends]; rfl, not_or.mp ‹_›⟩
  · rintro ⟨cut, single⟩
    exact ⟨inner ++ ['>'], cut.symm, inner, rfl, if_neg (not_or.mpr single)⟩

/-- A text that is not one reference has the value that its pieces are filled to.  Replacing
the references in place, with offsets in bytes, comes to the same after a round for each. -/
theorem lookup_eq_answer (outputs : Outputs) (expression : String)
    (embedded : ∀ inner, ¬IsWhole expression.toList inner) :
    outputs.lookup expression =
        answer expression (fill outputs.text? 0 (pieces expression.toList)) ∧
      ∀ rounds, (references expression.toList).length < rounds →
        Substitution.replaceAll? outputs.text? rounds expression.toList 0 =
          some (fill outputs.text? 0 (pieces expression.toList)) := by
  have notWhole : whole? expression.toList = none :=
    Option.eq_none_iff_forall_ne_some.mpr fun inner whole =>
      embedded inner (whole?_eq_some_iff.mp whole)
  constructor
  · have filled := Substitution.substituteFrom_append outputs.text? [] expression.toList
      Nat.le.refl
    rw [prepend_nil] at filled
    rw [lookup, notWhole]
    change (match Substitution.substituteFrom outputs.text? expression.toList.length
        ([] ++ expression.toList) ([] : List Char).length with
      | .ok text => _ | .error offset => _) = _
    rw [filled]
    rfl
  · intro rounds enough
    have filled := Substitution.replaceAll?_append outputs.text? [] expression.toList enough
    rwa [prepend_nil] at filled

/-- Outputs with a value that opens a reference when it comes in front of a `+`. -/
def openingOutputs : Outputs where
  document := .object [("mark", .string "<")]

theorem lookup_eq_answer_openingOutputs :
    (∀ inner, ¬IsWhole "é<+provisioner.mark>+provisioner.mark>".toList inner) ∧
      openingOutputs.lookup "é<+provisioner.mark>+provisioner.mark>" =
        .ok (some (.string "é<+provisioner.mark>")) ∧
      Substitution.replaceAll? openingOutputs.text? 2
          "é<+provisioner.mark>+provisioner.mark>".toList 0 =
        some (.ok (some "é<+provisioner.mark>".toList)) := by
  have embedded : ∀ inner, ¬IsWhole "é<+provisioner.mark>+provisioner.mark>".toList inner := by
    intro inner whole
    have notWhole : whole? "é<+provisioner.mark>+provisioner.mark>".toList = none := by decide
    rw [whole?_eq_some_iff.mpr whole] at notWhole
    cases notWhole
  have filled : fill openingOutputs.text? 0
        (pieces "é<+provisioner.mark>+provisioner.mark>".toList) =
      .ok (some "é<+provisioner.mark>".toList) := by
    decide
  obtain ⟨value, replaced⟩ := lookup_eq_answer openingOutputs _ embedded
  rw [filled] at value replaced
  exact ⟨embedded, value, replaced 2 (by decide)⟩

end DeployTarget.Outputs
