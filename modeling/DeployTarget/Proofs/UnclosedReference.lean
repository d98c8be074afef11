import DeployTarget.Proofs.References

/-!
# References that are not closed

A lookup fails if and only if it comes to a reference that is opened and never closed, all
references in front of it having values.  The offset of the failure counts the bytes of the text
in front with its references replaced.  So it points into the text that has been written by then;
where the replaced references and their values are not of one size, it points elsewhere in the
expression that the failure quotes.
-/

namespace DeployTarget

namespace Template

/-! ## Openings that are never closed -/

/-- Whether an offset into a text is one at which a reference is opened that is never closed. -/
def IsUnclosedAt (text : List Char) (offset : Nat) : Prop :=
  ∃ front inner, Text.cutAt? text offset = some (front, '<' :: '+' :: inner) ∧ '>' ∉ inner

theorem isUnclosedAt_append (front : List Char) {inner : List Char} (noClose : '>' ∉ inner) :
    IsUnclosedAt (front ++ '<' :: '+' :: inner) (byteLength front) :=
  ⟨front, inner, Text.cutAt?_append front _, noClose⟩

/-- Behind a closed text, an opening that is never closed is the last piece. -/
theorem pieces_append_unclosed {front inner : List Char} (closed : Closed front)
    (noClose : '>' ∉ inner) :
    pieces (front ++ '<' :: '+' :: inner) = pieces front ++ [.unclosed] := by
  induction front using text_induction with
  | plain front unopened => rw [pieces_unclosed unopened noClose, pieces_unopened unopened]
  | unclosed plain other unopened otherNoClose =>
      simp [Closed, pieces_unclosed unopened otherNoClose] at closed
  | reference plain other rest unopened otherNoClose ih =>
      have closedRest := (closed_reference unopened otherNoClose rest).mp closed
      rw [List.append_assoc _ ('>' :: rest), List.cons_append,
        pieces_reference unopened otherNoClose, ih closedRest,
        pieces_reference unopened otherNoClose, List.append_assoc, List.cons_append]

theorem not_closed_append {front inner : List Char} (closed : Closed front)
    (noClose : '>' ∉ inner) : ¬Closed (front ++ '<' :: '+' :: inner) := by
  rw [Closed, pieces_append_unclosed closed noClose]
  simp

/-! ## Where filling fails -/

theorem prepend_eq_some_iff {written text : List Char}
    {filled : Except Nat (Option (List Char))} :
    prepend written filled = .ok (some text) ↔
      ∃ behind, filled = .ok (some behind) ∧ written ++ behind = text := by
  rcases filled with offset | (_ | behind) <;> simp

theorem prepend_eq_error_iff {written : List Char} {offset : Nat}
    {filled : Except Nat (Option (List Char))} :
    prepend written filled = .error offset ↔ filled = .error offset := by
  rcases filled with offset | (_ | behind) <;> simp

variable (value? : List Char → Option (List Char)) (written : Nat)

/-- What pieces are filled to is written in front of what follows them. -/
theorem fill_append {front : List Piece} {filled : List Char}
    (fills : fill value? written front = .ok (some filled)) (rest : List Piece) :
    fill value? written (front ++ rest) =
      prepend filled (fill value? (written + byteLength filled) rest) := by
  induction front generalizing written filled with
  | nil =>
      cases fills
      exact (prepend_nil _).symm
  | cons piece front ih =>
      -- A piece that is filled writes its text in front of whatever follows it.
      have behind (text : List Char)
          (first : ∀ rest, fill value? written (piece :: rest) =
            prepend text (fill value? (written + byteLength text) rest)) :
          fill value? written (piece :: front ++ rest) =
            prepend filled (fill value? (written + byteLength filled) rest) := by
        rw [first] at fills
        obtain ⟨others, fillsFront, rfl⟩ := prepend_eq_some_iff.mp fills
        rw [List.cons_append, first, ih _ fillsFront, prepend_prepend, byteLength_append,
          Nat.add_assoc]
      cases piece with
      | character c =>
          refine behind [c] fun rest => ?_
          rw [byteLength_cons, byteLength_nil, Nat.add_zero]
          rfl
      | reference inner =>
          cases known : value? inner with
          | none => simp [fill, known] at fills
          | some text =>
              refine behind text fun rest => ?_
              rw [fill, known]
              rfl
      | unclosed => cases fills

/-- Where filling fails there is an opening that is never closed, and the text in front of it is
filled. -/
theorem exists_of_fill_eq_error {text : List Char} {offset : Nat}
    (fails : fill value? written (pieces text) = .error offset) :
    ∃ front inner filled, text = front ++ '<' :: '+' :: inner ∧ '>' ∉ inner ∧
      fill value? written (pieces front) = .ok (some filled) ∧
      offset = written + byteLength filled := by
  induction text using text_induction generalizing written with
  | plain text unopened =>
      rw [fill_unopened value? written unopened] at fails
      cases fails
  | unclosed plain inner unopened noClose =>
      rw [fill_unclosed value? written unopened noClose] at fails
      cases fails
      exact ⟨plain, inner, plain, rfl, noClose, fill_unopened value? written unopened, rfl⟩
  | reference plain other rest unopened otherNoClose ih =>
      cases known : value? other with
      | none =>
          rw [fill_reference_of_none value? written unopened otherNoClose known] at fails
          cases fails
      | some value =>
          rw [fill_reference_of_some value? written unopened otherNoClose known] at fails
          obtain ⟨front, inner, filled, rfl, noClose, fills, rfl⟩ :=
            ih _ (prepend_eq_error_iff.mp fails)
          refine ⟨plain ++ '<' :: '+' :: other ++ '>' :: front, inner, plain ++ value ++ filled,
            by simp, noClose, ?_, ?_⟩
          · rw [fill_reference_of_some value? written unopened otherNoClose known, fills,
              prepend_some]
          · rw [byteLength_append _ filled, Nat.add_assoc]

/-- A closed text without references is filled to itself. -/
theorem fill_of_references_eq_nil {text : List Char} (closed : Closed text)
    (noReference : references text = []) :
    fill value? written (pieces text) = .ok (some text) := by
  cases text using text_induction with
  | plain text unopened => exact fill_unopened value? written unopened
  | unclosed plain other unopened noClose =>
      simp [Closed, pieces_unclosed unopened noClose] at closed
  | reference plain other rest unopened noClose _ =>
      rw [references_reference unopened noClose] at noReference
      cases noReference

end Template

namespace Outputs

open Template

/-! ## Where a lookup fails -/

/-- A text is broken by an opening that is never closed if the text in front of it is filled. -/
structure IsBroken (outputs : Outputs) (text front inner filled : List Char) : Prop where
  parts : text = front ++ '<' :: '+' :: inner
  noClose : '>' ∉ inner
  fills : fill outputs.text? 0 (pieces front) = .ok (some filled)

section Broken

variable {outputs : Outputs} {text front inner filled : List Char}

theorem IsBroken.closed (broken : outputs.IsBroken text front inner filled) : Closed front :=
  ((exists_fill_iff outputs.text? 0 (pieces front)).mp ⟨filled, broken.fills⟩).1

theorem IsBroken.fill_eq (broken : outputs.IsBroken text front inner filled) :
    fill outputs.text? 0 (pieces text) = .error (byteLength filled) := by
  rw [broken.parts, pieces_append_unclosed broken.closed broken.noClose,
    fill_append outputs.text? 0 broken.fills, fill, prepend_error, Nat.zero_add]

theorem IsBroken.not_isWhole (broken : outputs.IsBroken text front inner filled)
    (other : List Char) : ¬IsWhole text other := by
  intro whole
  have closed := whole.references_eq.1
  rw [broken.parts] at closed
  exact not_closed_append broken.closed broken.noClose closed

end Broken

theorem answer_eq_error_iff {expression : String} {filled : Except Nat (Option (List Char))}
    {error : Error} :
    answer expression filled = .error error ↔
      ∃ offset, filled = .error offset ∧ error = .resolution expression (.unclosed offset) := by
  rcases filled with offset | text <;> simp [answer, eq_comm]

/-- A lookup fails if and only if its text is broken.  The offset of the failure is that of the
opening in the text whose references in front have been replaced.  In the expression itself the
opening has this offset if and only if what is in front of it keeps its size; it does where no
reference is in front. -/
theorem lookup_eq_error_iff (outputs : Outputs) (expression : String) :
    (∀ error, outputs.lookup expression = .error error ↔
      ∃ front inner filled, outputs.IsBroken expression.toList front inner filled ∧
        error = .resolution expression (.unclosed (byteLength filled))) ∧
    ∀ front inner filled, outputs.IsBroken expression.toList front inner filled →
      IsUnclosedAt (filled ++ '<' :: '+' :: inner) (byteLength filled) ∧
      (Text.cutAt? expression.toList (byteLength filled) = some (front, '<' :: '+' :: inner) ↔
        byteLength filled = byteLength front) ∧
      (references front = [] → IsUnclosedAt expression.toList (byteLength filled)) := by
  constructor
  · intro error
    constructor
    · intro fails
      have embedded (inner : List Char) : ¬IsWhole expression.toList inner := by
        intro whole
        rw [lookup_whole outputs whole] at fails
        cases fails
      rw [(lookup_eq_answer outputs expression embedded).1, answer_eq_error_iff] at fails
      obtain ⟨offset, fails, rfl⟩ := fails
      obtain ⟨front, inner, filled, parts, noClose, fills, rfl⟩ :=
        exists_of_fill_eq_error outputs.text? 0 fails
      exact ⟨front, inner, filled, ⟨parts, noClose, fills⟩, by rw [Nat.zero_add]⟩
    · rintro ⟨front, inner, filled, broken, rfl⟩
      rw [(lookup_eq_answer outputs expression broken.not_isWhole).1, broken.fill_eq]
      rfl
  · intro front inner filled broken
    refine ⟨isUnclosedAt_append filled broken.noClose, ?_, fun noReference => ?_⟩
    · rw [Text.cutAt?_eq_some_iff, and_iff_right broken.parts, eq_comm]
    · have kept := fill_of_references_eq_nil outputs.text? 0 broken.closed noReference
      rw [broken.fills] at kept
      cases kept
      rw [broken.parts]
      exact isUnclosedAt_append front broken.noClose

/-- Outputs whose only value is shorter than the references to it. -/
def clusterOutputs : Outputs where
  document := .object [("cluster", .string "é")]

/-- The offset counts the two bytes of the value, and behind no reference it is one into the
expression. -/
theorem lookup_eq_error_clusterOutputs :
    clusterOutputs.IsBroken "<+provisioner.cluster>-<+provisioner.zone".toList
        "<+provisioner.cluster>-".toList "provisioner.zone".toList "é-".toList ∧
      clusterOutputs.lookup "<+provisioner.cluster>-<+provisioner.zone" =
        .error (.resolution "<+provisioner.cluster>-<+provisioner.zone" (.unclosed 3)) ∧
      IsUnclosedAt "é-<+provisioner.zone".toList 3 ∧
      clusterOutputs.IsBroken "é-<+provisioner.zone".toList "é-".toList
        "provisioner.zone".toList "é-".toList ∧
      IsUnclosedAt "é-<+provisioner.zone".toList (byteLength "é-".toList) := by
  have behindReference : clusterOutputs.IsBroken
      "<+provisioner.cluster>-<+provisioner.zone".toList
      "<+provisioner.cluster>-".toList "provisioner.zone".toList "é-".toList :=
    ⟨by decide, by decide, by decide⟩
  have behindText : clusterOutputs.IsBroken "é-<+provisioner.zone".toList "é-".toList
      "provisioner.zone".toList "é-".toList :=
    ⟨by decide, by decide, by decide⟩
  obtain ⟨fails, offsets⟩ :=
    clusterOutputs.lookup_eq_error_iff "<+provisioner.cluster>-<+provisioner.zone"
  obtain ⟨inWritten, -⟩ := offsets _ _ _ behindReference
  obtain ⟨-, -, inExpression⟩ :=
    (clusterOutputs.lookup_eq_error_iff "é-<+provisioner.zone").2 _ _ _ behindText
  exact ⟨behindReference, (fails _).mpr ⟨_, _, _, behindReference, rfl⟩, inWritten, behindText,
    inExpression rfl⟩

/-- Behind a reference with a shorter value, the offset of the failure is one inside that
reference. -/
theorem misses_opening_clusterOutputs :
    clusterOutputs.lookup "<+provisioner.cluster>-<+provisioner.zone" =
        .error (.resolution "<+provisioner.cluster>-<+provisioner.zone" (.unclosed 3)) ∧
      ¬IsUnclosedAt "<+provisioner.cluster>-<+provisioner.zone".toList 3 := by
  refine ⟨rfl, ?_⟩
  rintro ⟨front, inner, cut, -⟩
  have inside : Text.cutAt? "<+provisioner.cluster>-<+provisioner.zone".toList 3 =
      some ("<+p".toList, "rovisioner.cluster>-<+provisioner.zone".toList) := by
    decide
  rw [inside] at cut
  cases cut

end Outputs

end DeployTarget
