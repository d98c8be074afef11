import DeployTarget.Proofs.ByteOffset

/-!
# The pieces of a text

A text stands for itself up to the first reference that is opened in it.  What follows is
a reference up to the next `>`, and behind it comes a text again.  So every text is plain, or
ends in a reference that is not closed, or is plain text and a reference in front of another
text; the pieces of a text and what they are filled to follow this form.
-/

namespace DeployTarget.Template

/-! ## Plain text -/

/-- Whether no reference is opened in a text. -/
def Unopened (text : List Char) : Prop :=
  ¬['<', '+'] <:+: text

theorem unopened_nil : Unopened [] := by
  simp [Unopened]

theorem unopened_cons {c : Char} {rest : List Char} :
    Unopened (c :: rest) ↔ ¬(c = '<' ∧ rest.head? = some '+') ∧ Unopened rest := by
  have opens : ['<', '+'] <+: c :: rest ↔ c = '<' ∧ rest.head? = some '+' := by
    cases rest <;> simp [List.cons_prefix_cons, eq_comm]
  rw [Unopened, List.infix_cons_iff, opens, not_or]
  rfl

/-- A text is plain, or it has a first reference that is opened behind plain text. -/
theorem unopened_or_exists (text : List Char) : Unopened text ∨
    ∃ plain behind, Unopened plain ∧ text = plain ++ '<' :: '+' :: behind := by
  induction text with
  | nil => exact .inl unopened_nil
  | cons c rest ih =>
      by_cases here : c = '<' ∧ rest.head? = some '+'
      · obtain ⟨rfl, opened⟩ := here
        obtain ⟨behind, rfl⟩ := List.head?_eq_some_iff.mp opened
        exact .inr ⟨[], behind, unopened_nil, rfl⟩
      · rcases ih with unopened | ⟨plain, behind, unopened, rfl⟩
        · exact .inl (unopened_cons.mpr ⟨here, unopened⟩)
        · refine .inr ⟨c :: plain, behind, unopened_cons.mpr ⟨fun opened => here ?_, unopened⟩, rfl⟩
          cases plain with
          | nil => cases opened.2
          | cons => exact opened

/-- To show something of every text, show it of plain text, of a text whose first reference
is not closed, and of a text with a first reference if it holds behind that reference. -/
theorem text_induction {motive : List Char → Prop}
    (plain : ∀ text, Unopened text → motive text)
    (unclosed : ∀ text inner, Unopened text → '>' ∉ inner →
      motive (text ++ '<' :: '+' :: inner))
    (reference : ∀ text inner rest, Unopened text → '>' ∉ inner → motive rest →
      motive (text ++ '<' :: '+' :: inner ++ '>' :: rest))
    (text : List Char) : motive text := by
  induction size : text.length using Nat.strongRecOn generalizing text with
  | _ size ih =>
      subst size
      rcases unopened_or_exists text with unopened | ⟨front, behind, unopened, rfl⟩
      · exact plain text unopened
      · by_cases closed : '>' ∈ behind
        · obtain ⟨inner, rest, rfl, first⟩ := List.eq_append_cons_of_mem closed
          have shorter : rest.length < (front ++ '<' :: '+' :: (inner ++ '>' :: rest)).length := by
            simp only [List.length_append, List.length_cons]
            omega
          have shown := reference front inner rest unopened first (ih _ shorter rest rfl)
          rwa [List.append_assoc] at shown
        · exact unclosed front behind unopened closed

/-! ## Pieces -/

theorem pieces_cons {c : Char} {rest : List Char} (plain : ¬(c = '<' ∧ rest.head? = some '+')) :
    pieces (c :: rest) = .character c :: pieces rest := by
  rw [pieces]
  rintro tail rfl rfl
  exact plain ⟨rfl, rfl⟩

/-- Plain text stands for itself, also in front of a reference. -/
theorem pieces_append {plain rest : List Char} (unopened : Unopened plain)
    (apart : rest.head? ≠ some '+') :
    pieces (plain ++ rest) = plain.map .character ++ pieces rest := by
  induction plain with
  | nil => rfl
  | cons c plain ih =>
      obtain ⟨first, others⟩ := unopened_cons.mp unopened
      have single : ¬(c = '<' ∧ (plain ++ rest).head? = some '+') := by
        cases plain with
        | nil => exact fun opens => apart opens.2
        | cons other plain => exact first
      rw [List.cons_append, pieces_cons single, ih others]
      rfl

theorem referencePieces_append {inner : List Char} (noClose : '>' ∉ inner)
    (held rest : List Char) :
    referencePieces held (inner ++ rest) = referencePieces (inner.reverse ++ held) rest := by
  induction inner generalizing held with
  | nil => rfl
  | cons c inner ih =>
      obtain ⟨other, later⟩ := not_or.mp (List.mem_cons.not.mp noClose)
      rw [List.cons_append, referencePieces, ih later, List.reverse_cons, List.append_assoc]
      · rfl
      · exact fun same => other same.symm

theorem pieces_unopened {text : List Char} (unopened : Unopened text) :
    pieces text = text.map .character := by
  have cut : pieces (text ++ []) = _ := pieces_append unopened (by simp)
  rwa [List.append_nil, pieces, List.append_nil] at cut

theorem pieces_unclosed {plain inner : List Char} (unopened : Unopened plain)
    (noClose : '>' ∉ inner) :
    pieces (plain ++ '<' :: '+' :: inner) = plain.map .character ++ [.unclosed] := by
  have cut := referencePieces_append noClose [] []
  rw [List.append_nil] at cut
  rw [pieces_append unopened (by simp), pieces, cut]
  rfl

theorem pieces_reference {plain inner : List Char} (unopened : Unopened plain)
    (noClose : '>' ∉ inner) (rest : List Char) :
    pieces (plain ++ '<' :: '+' :: inner ++ '>' :: rest) =
      plain.map .character ++ .reference inner :: pieces rest := by
  rw [List.append_assoc, pieces_append unopened (by simp), List.cons_append, List.cons_append,
    pieces, referencePieces_append noClose, referencePieces, List.append_nil, List.reverse_reverse]

/-! ## References -/

/-- The characters between the marks of a piece that is a reference. -/
def Piece.inner? : Piece → Option (List Char)
  | .reference inner => some inner
  | .character _ => none
  | .unclosed => none

/-- The references of a text, by the characters between their marks. -/
def references (text : List Char) : List (List Char) :=
  (pieces text).filterMap Piece.inner?

private theorem filterMap_characters (plain : List Char) (rest : List Piece) :
    (plain.map Piece.character ++ rest).filterMap Piece.inner? =
      rest.filterMap Piece.inner? := by
  induction plain with
  | nil => rfl
  | cons c plain ih => exact ih

theorem references_unopened {text : List Char} (unopened : Unopened text) :
    references text = [] := by
  have cut := filterMap_characters text []
  rw [List.append_nil] at cut
  rw [references, pieces_unopened unopened, cut]
  rfl

theorem references_unclosed {plain inner : List Char} (unopened : Unopened plain)
    (noClose : '>' ∉ inner) : references (plain ++ '<' :: '+' :: inner) = [] := by
  rw [references, pieces_unclosed unopened noClose, filterMap_characters]
  rfl

theorem references_reference {plain inner : List Char} (unopened : Unopened plain)
    (noClose : '>' ∉ inner) (rest : List Char) :
    references (plain ++ '<' :: '+' :: inner ++ '>' :: rest) = inner :: references rest := by
  rw [references, pieces_reference unopened noClose, filterMap_characters]
  rfl

/-! ## Filled pieces -/

/-- What pieces are filled to, behind text that is written already. -/
def prepend (written : List Char) (filled : Except Nat (Option (List Char))) :
    Except Nat (Option (List Char)) :=
  filled.map (Option.map (written ++ ·))

@[simp]
theorem prepend_some (written text : List Char) :
    prepend written (.ok (some text)) = .ok (some (written ++ text)) :=
  rfl

@[simp]
theorem prepend_none (written : List Char) : prepend written (.ok none) = .ok none :=
  rfl

@[simp]
theorem prepend_error (written : List Char) (offset : Nat) :
    prepend written (.error offset) = .error offset :=
  rfl

theorem prepend_nil (filled : Except Nat (Option (List Char))) : prepend [] filled = filled := by
  rcases filled with offset | (_ | text) <;> rfl

theorem prepend_prepend (first second : List Char) (filled : Except Nat (Option (List Char))) :
    prepend first (prepend second filled) = prepend (first ++ second) filled := by
  rcases filled with offset | (_ | text) <;> simp

variable (value? : List Char → Option (List Char)) (written : Nat)

theorem fill_characters (plain : List Char) (rest : List Piece) :
    fill value? written (plain.map .character ++ rest) =
      prepend plain (fill value? (written + byteLength plain) rest) := by
  induction plain generalizing written with
  | nil => exact (prepend_nil _).symm
  | cons c plain ih =>
      calc
        fill value? written ((c :: plain).map .character ++ rest) =
            prepend [c] (fill value? (written + c.utf8Size) (plain.map .character ++ rest)) := rfl
        _ = _ := by rw [ih, prepend_prepend, byteLength_cons, Nat.add_assoc]; rfl

theorem fill_unopened {text : List Char} (unopened : Unopened text) :
    fill value? written (pieces text) = .ok (some text) := by
  have filled := fill_characters value? written text []
  rw [List.append_nil] at filled
  rw [pieces_unopened unopened, filled, fill, prepend_some, List.append_nil]

theorem fill_unclosed {plain inner : List Char} (unopened : Unopened plain)
    (noClose : '>' ∉ inner) :
    fill value? written (pieces (plain ++ '<' :: '+' :: inner)) =
      .error (written + byteLength plain) := by
  rw [pieces_unclosed unopened noClose, fill_characters, fill, prepend_error]

theorem fill_reference_of_none {plain inner : List Char} (unopened : Unopened plain)
    (noClose : '>' ∉ inner) (unknown : value? inner = none) (rest : List Char) :
    fill value? written (pieces (plain ++ '<' :: '+' :: inner ++ '>' :: rest)) = .ok none := by
  rw [pieces_reference unopened noClose, fill_characters, fill, unknown, prepend_none]

theorem fill_reference_of_some {plain inner value : List Char} (unopened : Unopened plain)
    (noClose : '>' ∉ inner) (known : value? inner = some value) (rest : List Char) :
    fill value? written (pieces (plain ++ '<' :: '+' :: inner ++ '>' :: rest)) =
      prepend (plain ++ value)
        (fill value? (written + byteLength (plain ++ value)) (pieces rest)) := by
  rw [pieces_reference unopened noClose, fill_characters, fill, known, ← prepend_prepend,
    byteLength_append, ← Nat.add_assoc]
  rfl

end DeployTarget.Template
