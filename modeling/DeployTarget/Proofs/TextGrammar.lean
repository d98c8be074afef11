import DeployTarget.Proofs.PathSpelling

/-!
# The grammar of expressions and runtime input

Runtime input is the marker with calls of modifiers behind it and blanks around it; an expression
holds a reference somewhere.  Both are described here without the order in which a text is read,
and the readers accept exactly what is described: a call has only one end, because its argument
holds no parentheses, and only one name, because no name holds one.
-/

namespace DeployTarget

namespace Field

/-- Characters that are a modifier call: a dot, the name of a modifier, and in parentheses an
argument without parentheses. -/
inductive IsModifierCall : List Char → Prop
  | call {name : String} {argument : List Char}
      (known : name ∈ ["default", "allowedValues", "regex", "executionInput"])
      (noOpen : '(' ∉ argument) (noClose : ')' ∉ argument) :
      IsModifierCall ('.' :: name.toList ++ '(' :: argument ++ [')'])

/-- Characters that are modifier calls, one behind the other. -/
def AreModifierCalls (cs : List Char) : Prop :=
  ∃ calls : List (List Char), (∀ call ∈ calls, IsModifierCall call) ∧ cs = calls.flatten

/-- A text that is, without the blanks around it, the marker with modifier calls behind it. -/
def IsRuntimeInput (text : String) : Prop :=
  ∃ calls, AreModifierCalls calls ∧ Text.trimmed text.toList = "<+input>".toList ++ calls

/-- Characters that hold a reference: an opening, at least one character that is no angle bracket,
and a closing bracket. -/
def HoldsReference (cs : List Char) : Prop :=
  ∃ before inner behind, cs = before ++ '<' :: '+' :: (inner ++ '>' :: behind) ∧
    inner ≠ [] ∧ '<' ∉ inner ∧ '>' ∉ inner

variable {name : String} {cs rest : List Char}

/-! ## Modifier calls -/

/-- A call of a modifier is read off up to the first parenthesis behind the opening one. -/
theorem dropCall?_eq_some_iff :
    dropCall? name cs = some rest ↔
      ∃ argument, '(' ∉ argument ∧ ')' ∉ argument ∧
        cs = '.' :: name.toList ++ '(' :: argument ++ ')' :: rest := by
  constructor
  · intro read
    obtain ⟨tail, opened, closed⟩ := Option.bind_eq_some_iff.mp read
    rw [List.isPrefixOf?_eq_some_iff_append_eq] at opened
    split at closed
    · next others stops =>
        cases closed
        have plain : ∀ c ∈ tail.takeWhile (!isParenthesis ·), isParenthesis c = false := by
          intro c member
          simpa using List.mem_takeWhile_imp (p := (!isParenthesis ·)) member
        obtain ⟨noOpen, noClose⟩ := forall_other_iff.mp plain
        have whole : tail.takeWhile (!isParenthesis ·) ++ ')' :: rest = tail := by
          rw [← stops, List.takeWhile_append_dropWhile]
        refine ⟨_, noOpen, noClose, ?_⟩
        simp [← opened, whole]
    · cases closed
  · rintro ⟨argument, noOpen, noClose, rfl⟩
    have plain : ∀ c ∈ argument, (!isParenthesis c) = true := by
      intro c member
      rw [Bool.not_eq_true']
      exact forall_other_iff.mpr ⟨noOpen, noClose⟩ c member
    have opened : ('.' :: name.toList ++ ['(']).isPrefixOf?
        ('.' :: name.toList ++ '(' :: argument ++ ')' :: rest) =
          some (argument ++ ')' :: rest) := by
      rw [List.isPrefixOf?_eq_some_iff_append_eq]
      simp
    rw [dropCall?, opened, Option.bind_eq_bind, Option.bind_some,
      List.dropWhile_append_of_pos plain, List.dropWhile_cons_of_neg (by decide)]
    rfl

/-- Characters that begin with calls of two modifiers begin with calls of one name. -/
theorem eq_of_dropCall? {other : String} {others : List Char} (noOpen : '(' ∉ name.toList)
    (noOpenOther : '(' ∉ other.toList) (read : dropCall? name cs = some rest)
    (readOther : dropCall? other cs = some others) : name = other := by
  have nameOf {name : String} {rest : List Char} (noOpen : '(' ∉ name.toList)
      (read : dropCall? name cs = some rest) : cs.tail.takeWhile (· != '(') = name.toList := by
    obtain ⟨argument, -, -, rfl⟩ := dropCall?_eq_some_iff.mp read
    have inside : ∀ c ∈ name.toList, (c != '(') = true := by
      intro c member
      rw [bne_iff_ne]
      rintro rfl
      exact noOpen member
    rw [List.append_assoc, List.cons_append, List.tail_cons,
      List.takeWhile_append_of_pos inside]
    simp
  rw [← String.toList_inj, ← nameOf noOpen read, nameOf noOpenOther readOther]

/-- The calls that characters can begin with are read off, whatever stands behind them. -/
theorem findSome?_dropCall?_eq_some_iff :
    modifiers.findSome? (dropCall? · cs) = some rest ↔
      ∃ call, IsModifierCall call ∧ cs = call ++ rest := by
  constructor
  · intro read
    obtain ⟨name, known, dropped⟩ := List.exists_of_findSome?_eq_some read
    obtain ⟨argument, noOpen, noClose, rfl⟩ := dropCall?_eq_some_iff.mp dropped
    exact ⟨_, .call known noOpen noClose, by simp⟩
  · rintro ⟨call, isCall, rfl⟩
    obtain @⟨name, argument, known, noOpen, noClose⟩ := isCall
    have dropped : dropCall? name ('.' :: name.toList ++ '(' :: argument ++ [')'] ++ rest) =
        some rest := dropCall?_eq_some_iff.mpr ⟨argument, noOpen, noClose, by simp⟩
    have unparenthesized : ∀ name ∈ modifiers, '(' ∉ name.toList := by decide
    have isSome : (modifiers.findSome? (dropCall? · ('.' :: name.toList ++ '(' :: argument ++ [')']
        ++ rest))).isSome = true := by
      rw [List.findSome?_isSome_iff]
      exact ⟨name, known, by rw [dropped]; rfl⟩
    -- Whichever name is found first, it is the one that is called.
    obtain ⟨others, found⟩ := Option.isSome_iff_exists.mp isSome
    obtain ⟨other, knownOther, droppedOther⟩ := List.exists_of_findSome?_eq_some found
    obtain rfl := eq_of_dropCall? (unparenthesized _ known) (unparenthesized _ knownOther) dropped
      droppedOther
    rw [found, ← droppedOther, dropped]

theorem IsModifierCall.length_pos {call : List Char} (isCall : IsModifierCall call) :
    0 < call.length := by
  obtain ⟨known, noOpen, noClose⟩ := isCall
  simp

/-- Characters are read call by call. -/
theorem areModifierCalls_cons (fuel : Nat) (c : Char) (cs : List Char) :
    areModifierCalls (fuel + 1) (c :: cs) =
      (modifiers.findSome? (dropCall? · (c :: cs))).any (areModifierCalls fuel) := by
  unfold areModifierCalls
  cases modifiers.findSome? (dropCall? · (c :: cs)) <;> rfl

/-- With enough fuel, modifier calls and nothing else are accepted. -/
theorem areModifierCalls_iff {fuel : Nat} (enough : cs.length ≤ fuel) :
    areModifierCalls fuel cs = true ↔ AreModifierCalls cs := by
  -- A call that is read off leaves fewer characters, so one less of fuel is enough for them.
  have shorter {call rest : List Char} {fuel : Nat} (isCall : IsModifierCall call)
      (enough : (call ++ rest).length ≤ fuel + 1) : rest.length ≤ fuel := by
    have positive := isCall.length_pos
    rw [List.length_append] at enough
    omega
  induction fuel generalizing cs with
  | zero =>
      obtain rfl := List.eq_nil_of_length_eq_zero (Nat.le_zero.mp enough)
      exact ⟨fun _ => ⟨[], nofun, rfl⟩, fun _ => rfl⟩
  | succ fuel ih =>
      cases cs with
      | nil => exact ⟨fun _ => ⟨[], nofun, rfl⟩, fun _ => rfl⟩
      | cons c others =>
          rw [areModifierCalls_cons, Option.any_eq_true]
          constructor
          · rintro ⟨rest, read, accepted⟩
            obtain ⟨call, isCall, parts⟩ := findSome?_dropCall?_eq_some_iff.mp read
            rw [parts] at enough ⊢
            obtain ⟨calls, areCalls, rfl⟩ := (ih (shorter isCall enough)).mp accepted
            exact ⟨call :: calls, List.forall_mem_cons.mpr ⟨isCall, areCalls⟩, rfl⟩
          · rintro ⟨calls, areCalls, parts⟩
            cases calls with
            | nil => cases parts
            | cons call calls =>
                obtain ⟨isCall, areOthers⟩ := List.forall_mem_cons.mp areCalls
                refine ⟨calls.flatten, ?_, ?_⟩
                · exact findSome?_dropCall?_eq_some_iff.mpr ⟨call, isCall, parts⟩
                · rw [parts] at enough
                  exact (ih (shorter isCall enough)).mpr ⟨calls, areOthers, rfl⟩

theorem isRuntimeInputText_iff {text : String} :
    isRuntimeInputText text = true ↔ IsRuntimeInput text := by
  rw [isRuntimeInputText]
  constructor
  · intro accepted
    split at accepted
    · next calls marked =>
        rw [List.isPrefixOf?_eq_some_iff_append_eq] at marked
        exact ⟨calls, (areModifierCalls_iff le_rfl).mp accepted, marked.symm⟩
    · cases accepted
  · rintro ⟨calls, areCalls, marked⟩
    have opened : inputMarker.toList.isPrefixOf? (Text.trimmed text.toList) = some calls :=
      List.isPrefixOf?_eq_some_iff_append_eq.mpr marked.symm
    rw [opened]
    exact (areModifierCalls_iff le_rfl).mpr areCalls

/-! ## References -/

/-- What follows an opening closes it if it is characters without angle brackets and a closing
bracket. -/
theorem closesReference_iff :
    closesReference cs = true ↔
      ∃ inner behind, cs = inner ++ '>' :: behind ∧ inner ≠ [] ∧ '<' ∉ inner ∧ '>' ∉ inner := by
  constructor
  · intro closes
    simp only [closesReference, Bool.and_eq_true, bne_iff_ne, beq_iff_eq] at closes
    obtain ⟨nonempty, closed⟩ := closes
    obtain ⟨behind, stops⟩ := List.head?_eq_some_iff.mp closed
    have plain : ∀ c ∈ cs.takeWhile (!isAngle ·), isAngle c = false := by
      intro c member
      simpa using List.mem_takeWhile_imp (p := (!isAngle ·)) member
    refine ⟨cs.takeWhile (!isAngle ·), behind, ?_, nonempty, forall_other_iff.mp plain⟩
    rw [← stops, List.takeWhile_append_dropWhile]
  · rintro ⟨inner, behind, rfl, nonempty, plain⟩
    exact closesReference_append nonempty (forall_other_iff.mpr plain) behind

/-- A character in front takes no reference away. -/
theorem hasReference_cons (c : Char) (holds : hasReference cs = true) :
    hasReference (c :: cs) = true := by
  unfold hasReference
  split
  · next same =>
      cases same
      simp [holds]
  · next same =>
      cases same
      exact holds
  · next same => cases same

theorem hasReference_iff : hasReference cs = true ↔ HoldsReference cs := by
  constructor
  · intro accepted
    induction cs using hasReference.induct with
    | case1 rest ih =>
        rw [hasReference, Bool.or_eq_true] at accepted
        rcases accepted with here | later
        · obtain ⟨inner, behind, rfl, plain⟩ := closesReference_iff.mp here
          exact ⟨[], inner, behind, rfl, plain⟩
        · obtain ⟨before, inner, behind, parts, plain⟩ := ih later
          exact ⟨'<' :: before, inner, behind, by rw [parts, List.cons_append], plain⟩
    | case2 first rest other ih =>
        rw [hasReference.eq_2 first rest other] at accepted
        obtain ⟨before, inner, behind, parts, plain⟩ := ih accepted
        exact ⟨first :: before, inner, behind, by rw [parts, List.cons_append], plain⟩
    | case3 => cases accepted
  · rintro ⟨before, inner, behind, rfl, plain⟩
    induction before with
    | nil =>
        rw [List.nil_append, hasReference, Bool.or_eq_true]
        exact .inl (closesReference_iff.mpr ⟨inner, behind, rfl, plain⟩)
    | cons c before ih => exact hasReference_cons c ih

theorem isExpressionText_iff {text : String} :
    isExpressionText text = true ↔ HoldsReference text.toList :=
  hasReference_iff

/-! ## Fields -/

/-- A text is classified by the two grammars.  Runtime input wins over expressions, an expression
keeps the text as it is written, and any other text is read as a literal of the field's type. -/
theorem ofJson_string_classified (α : Type) [FieldValue α] (text : String) :
    (isRuntimeInputText text = true ↔ IsRuntimeInput text) ∧
      (isExpressionText text = true ↔ HoldsReference text.toList) ∧
      let field : Except Mismatch (Field α) := ofJson (.string text)
      (IsRuntimeInput text → field = .ok .pending) ∧
        (¬ IsRuntimeInput text → HoldsReference text.toList → field = .ok (.expression text)) ∧
        (¬ IsRuntimeInput text → ¬ HoldsReference text.toList →
          field = literal <$> FieldValue.ofJson (.string text)) := by
  refine ⟨isRuntimeInputText_iff, isExpressionText_iff, ?_⟩
  rw [← isRuntimeInputText_iff, ← isExpressionText_iff]
  intro field
  refine ⟨?_, ?_, ?_⟩
  · intro runtimeInput
    exact if_pos runtimeInput
  · intro noInput expression
    exact (if_neg noInput).trans (if_pos expression)
  · intro noInput noExpression
    exact (if_neg noInput).trans (if_neg noExpression)

/-- An argument may look like a marker or a call, as long as it holds no parenthesis. -/
example :
    isRuntimeInputText " <+input>.default(<+input>.regex).regex(a)" = true ∧
      isRuntimeInputText "<+input>.default(.regex(a))" = false := by decide

end Field

end DeployTarget
