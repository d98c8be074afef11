import DeployTarget.Proofs.PathSteps
import DeployTarget.Resolution

/-!
# The two spellings of a path

A path to host objects or to one of their attributes is written bare, or as a reference behind
the name of what it starts at.  As fields the two are unlike, a value and an expression, but
neither is blank or runtime input, both stand for the same expression, and both lead to the same
place in every object.
-/

namespace DeployTarget

/-- A text that can be a path: not empty, without blanks around it and without angle brackets. -/
structure IsPath (path : String) : Prop where
  nonempty : path ≠ ""
  trimmed : Text.trimmed path.toList = path.toList
  noOpen : '<' ∉ path.toList
  noClose : '>' ∉ path.toList

/-- The reference to what a path leads to from a root. -/
def reference (root path : String) : String :=
  "<+" ++ root ++ "." ++ path ++ ">"

/-- Says that a text is one of the two spellings of a path from a root. -/
inductive Spells (root path : String) : String → Prop where
  | bare : Spells root path path
  | reference : Spells root path (reference root path)

/-- Says that two texts spell the same path from a root. -/
def SamePath (root first second : String) : Prop :=
  ∃ path, IsPath path ∧ Spells root path first ∧ Spells root path second

/-- What is opened by an angle bracket stands in front of no path. -/
theorem IsPath.isPrefixOf?_eq_none {path : String} (proper : IsPath path) (opened : List Char) :
    ('<' :: opened).isPrefixOf? path.toList = none := by
  rw [Option.eq_none_iff_forall_ne_some]
  intro rest marked
  rw [List.isPrefixOf?_eq_some_iff_append_eq] at marked
  exact proper.noOpen (marked ▸ List.mem_cons_self)

/-- A path behind a name without blanks at its ends is trimmed. -/
theorem IsPath.trimmed_behind {path : String} (proper : IsPath path) {first : Char}
    (begins : Text.isBlank first = false) (name : List Char) :
    Text.trimmed (first :: name ++ '.' :: path.toList) = first :: name ++ '.' :: path.toList := by
  rw [Text.trimmed_eq_self_iff]
  refine ⟨by simpa using begins, fun c last => ?_⟩
  have nonempty : path.toList ≠ [] := mt String.toList_eq_nil_iff.mp proper.nonempty
  rw [List.getLast?_append_cons, List.getLast?_cons_of_ne_nil nonempty] at last
  exact (Text.trimmed_eq_self_iff.mp proper.trimmed).2 c last

theorem toList_reference (root path : String) :
    (reference root path).toList = '<' :: ('+' :: root.toList ++ '.' :: path.toList) ++ ['>'] := by
  simp [reference]

theorem trimmed_reference (root path : String) :
    Text.trimmed (reference root path).toList = (reference root path).toList := by
  rw [toList_reference]
  exact Text.trimmed_eq_self _ (by decide) (by decide)

/-! ## Spellings as fields -/

namespace Field

variable {path written : String}

theorem hasReference_of_not_mem {text : List Char} (plain : '<' ∉ text) :
    hasReference text = false := by
  fun_induction hasReference text with
  | case1 rest => exact absurd List.mem_cons_self plain
  | case2 first rest _ ih => exact ih fun member => plain (List.mem_cons_of_mem _ member)
  | case3 => rfl

/-- Characters are other than two characters if neither of the two is among them. -/
theorem forall_other_iff {first second : Char} {text : List Char} :
    (∀ c ∈ text, (c == first || c == second) = false) ↔ first ∉ text ∧ second ∉ text := by
  constructor
  · intro other
    exact ⟨fun member => by simpa using other _ member, fun member => by simpa using other _ member⟩
  · rintro ⟨noFirst, noSecond⟩ c member
    simp only [Bool.or_eq_false_iff, beq_eq_false_iff_ne]
    exact ⟨fun same => noFirst (same ▸ member), fun same => noSecond (same ▸ member)⟩

/-- Characters other than angle brackets are closed by the bracket behind them. -/
theorem closesReference_append {inner : List Char} (nonempty : inner ≠ [])
    (plain : ∀ c ∈ inner, isAngle c = false) (rest : List Char) :
    closesReference (inner ++ '>' :: rest) = true := by
  have inside : ∀ c ∈ inner, (!isAngle c) = true := fun c member => by simp [plain c member]
  rw [closesReference, List.takeWhile_append_of_pos inside, List.dropWhile_append_of_pos inside]
  simp [isAngle, nonempty]

theorem isExpressionText_bare (proper : IsPath path) : isExpressionText path = false :=
  hasReference_of_not_mem proper.noOpen

theorem isExpressionText_reference (proper : IsPath path) :
    isExpressionText (reference Outputs.root path) = true := by
  have rooted : Outputs.root.toList.all (!isAngle ·) = true := rfl
  have plain : ∀ c ∈ Outputs.root.toList ++ '.' :: path.toList, isAngle c = false := by
    rw [List.forall_mem_append, List.forall_mem_cons]
    exact ⟨by simpa using rooted, rfl, forall_other_iff.mpr ⟨proper.noOpen, proper.noClose⟩⟩
  rw [isExpressionText, toList_reference]
  simp only [List.cons_append, hasReference, Bool.or_eq_true]
  exact .inl (closesReference_append (by simp) plain [])

theorem isRuntimeInputText_bare (proper : IsPath path) : isRuntimeInputText path = false := by
  have unmarked : inputMarker.toList.isPrefixOf? path.toList = none :=
    proper.isPrefixOf?_eq_none _
  rw [isRuntimeInputText, proper.trimmed, unmarked]

theorem isRuntimeInputText_reference (path : String) :
    isRuntimeInputText (reference Outputs.root path) = false := by
  rw [isRuntimeInputText, trimmed_reference, toList_reference]
  rfl

/-- The field that a spelling is read as. -/
theorem ofJson_spelling {field : Field String} (proper : IsPath path)
    (spells : Spells Outputs.root path written)
    (read : Field.ofJson (.string written) = .ok field) :
    field = .literal path ∨ field = .expression (reference Outputs.root path) := by
  cases spells with
  | bare =>
      simp only [ofJson, isRuntimeInputText_bare proper, isExpressionText_bare proper] at read
      cases read
      exact .inl rfl
  | reference =>
      simp only [ofJson, isRuntimeInputText_reference, isExpressionText_reference proper] at read
      cases read
      exact .inr rfl

end Field

namespace HostPool

variable {path written : String}

/-! ## Spellings that are followed -/

/-- Both spellings stand for the reference. -/
theorem arrayExpression_spelling (proper : IsPath path) (spells : Spells Outputs.root path written) :
    arrayExpression written = reference Outputs.root path := by
  cases spells with
  | bare =>
      have whole : Text.trim path = path := by
        rw [Text.trim, proper.trimmed, String.ofList_toList]
      rw [arrayExpression, Field.isExpressionText_bare proper, whole]
      rfl
  | reference => rw [arrayExpression, if_pos (Field.isExpressionText_reference proper)]

/-- Leading dots of a path count for nothing. -/
theorem pathSteps?_dropWhile (path : List Char) :
    Json.pathSteps? (path.dropWhile (· == '.')) = Json.pathSteps? path := by
  induction path with
  | nil => rfl
  | cons first rest ih =>
      by_cases dot : first = '.'
      · subst dot
        rw [Json.pathSteps?_cons_dot, ← ih]
        rfl
      · rw [List.dropWhile_cons_of_neg (by simpa using dot)]

theorem attributePath_bare (proper : IsPath path) : attributePath path = path.toList := by
  rw [attributePath, proper.trimmed, proper.isPrefixOf?_eq_none]
  rfl

/-- In a reference, the dots in front of the path are dropped. -/
theorem attributePath_reference (proper : IsPath path) :
    attributePath (reference root path) = path.toList.dropWhile (· == '.') := by
  have opened : ['<', '+'].isPrefixOf? (reference root path).toList =
      some (root.toList ++ '.' :: path.toList ++ ['>']) := by
    rw [List.isPrefixOf?_eq_some_iff_append_eq, toList_reference]
    simp
  have closed : ['>'].isSuffixOf? (root.toList ++ '.' :: path.toList ++ ['>']) =
      some (root.toList ++ '.' :: path.toList) :=
    List.isSuffixOf?_eq_some_iff_append_eq.mpr rfl
  have behind : root.toList.isPrefixOf? (root.toList ++ '.' :: path.toList) =
      some ('.' :: path.toList) :=
    List.isPrefixOf?_eq_some_iff_append_eq.mpr rfl
  have inner : Text.trimmed (root.toList ++ '.' :: path.toList) =
      root.toList ++ '.' :: path.toList :=
    proper.trimmed_behind (by decide) _
  rw [attributePath, trimmed_reference, opened, Option.bind_eq_bind, Option.bind_some, closed]
  simp only [inner, pathOfReference, behind]

/-- Both spellings lead to the same place in an object. -/
theorem attribute?_congr {first second : String} (same : SamePath root first second)
    (object : Json) : attribute? object first = attribute? object second := by
  obtain ⟨path, proper, firstSpells, secondSpells⟩ := same
  have steps {written : String} (spells : Spells root path written) :
      Json.pathSteps? (attributePath written) = Json.pathSteps? path.toList := by
    cases spells with
    | bare => rw [attributePath_bare proper]
    | reference => rw [attributePath_reference proper, pathSteps?_dropWhile]
  simp only [attribute?, Json.find?, String.toList_ofList, steps firstSpells, steps secondSpells]

end HostPool

end DeployTarget
