import DeployTarget.Proofs.Inquiry

/-!
# Settled fields

A field is settled when the value that an evaluator supplies for its expression is written
in its place.  Reading a settled field as it is written, in any world, yields what reading
the field from the evaluator yields.
-/

namespace DeployTarget

namespace Program

variable {α β : Type} {world other : World}

/-- A program that succeeds in one world is matched by a program that succeeds in another
world with the same value. -/
def Matched (world other : World) (first second : Program α) : Prop :=
  ∀ value, (first.run world none).result = .ok value →
    (second.run other none).result = .ok value

theorem Matched.bind {first second : Program α} {next nextSecond : α → Program β}
    (matched : Matched world other first second)
    (matchedNext : ∀ value, Matched world other (next value) (nextSecond value)) :
    Matched world other (first >>= next) (second >>= nextSecond) := by
  intro result succeeds
  obtain ⟨value, ended, endedNext⟩ := result_run_bind_eq_ok.mp succeeds
  exact result_run_bind_eq_ok.mpr
    ⟨value, matched value ended, matchedNext value result endedNext⟩

theorem matched_pure (value : α) : Matched world other (pure value) (pure value) :=
  fun _ ended => ended

theorem Matched.map {first second : Program α} (matched : Matched world other first second)
    (change : α → β) : Matched world other (change <$> first) (change <$> second) :=
  matched.bind fun _ => matched_pure _

/-- A program that asks nothing matches itself in every world. -/
theorem EndsAs.matched {program : Program α} {attempt : Except Error α}
    (ends : program.EndsAs attempt) : Matched world other program program :=
  fun _ ended => (ends.result other).trans ((ends.result world).symm.trans ended)

end Program

namespace Field

variable {α : Type} [FieldValue α]

/-- The value that an evaluator supplies for an expression, if it supplies one that fits. -/
def supplied? (α : Type) [FieldValue α] (lookup : String → Except Error (Option Json))
    (text : String) : Option α :=
  match lookup text with
  | .ok answer => (answer.filter (!·.isNull)).bind fun raw => (readSupplied α raw).toOption
  | .error _ => none

/-- The field with the value that an evaluator supplies written in the place of its
expression.  Without such a value the expression stays. -/
def settled (lookup : String → Except Error (Option Json)) : Field α → Field α
  | .expression text =>
      match supplied? α lookup text with
      | some value => .literal value
      | none => .expression text
  | other => other

/-- The settled field, left out if it is an expression without a value. -/
def settledOrAbsent (lookup : String → Except Error (Option Json)) :
    Option (Field α) → Option (Field α)
  | some (.expression text) => (supplied? α lookup text).map .literal
  | field => field

/-- Settling changes nothing but expressions without values. -/
theorem exists_expression_or_settled_eq (lookup : String → Except Error (Option Json))
    (field : Option (Field α)) :
    (∃ text, field = some (.expression text)) ∨
      field.bind unresolved? = none ∧ field.map (settled lookup) = field := by
  cases field with
  | none => exact Or.inr ⟨rfl, rfl⟩
  | some field =>
      cases field with
      | expression text => exact Or.inl ⟨text, rfl⟩
      | literal | pending | resolved => exact Or.inr ⟨rfl, rfl⟩

variable {world other : World}

/-- An answer is read as the value that is supplied, or else as the mode says. -/
theorem ofAnswer_eq_ok {mode : Mode} {text : String} {resolved : Option (Field α)}
    (read : (world.lookup text >>= ofAnswer mode text) = .ok resolved) :
    (∃ value, supplied? α world.lookup text = some value ∧
        resolved = some (.resolved text value)) ∨
      supplied? α world.lookup text = none ∧
        (mode = .keep ∧ resolved = some (.expression text) ∨ mode = .drop ∧ resolved = none) := by
  unfold supplied?
  cases answered : world.lookup text with
  | error error =>
      rw [answered] at read
      cases read
  | ok answer =>
      rw [answered] at read
      change ofAnswer mode text answer = .ok resolved at read
      unfold ofAnswer at read
      cases kept : answer.filter (!·.isNull) with
      | none =>
          rw [kept] at read
          right
          cases mode <;> cases read <;> simp [kept, -Option.filter_eq_none_iff]
      | some raw =>
          rw [kept] at read
          left
          cases converted : readSupplied α raw with
          | error mismatch =>
              simp only [converted] at read
              cases read
          | ok value =>
              simp only [converted] at read
              cases read
              exact ⟨value, by simp [kept, converted, Except.toOption], rfl⟩

/-- Behind its checkpoint, an expression that is read successfully is one whose answer is
read successfully. -/
private theorem exists_of_resolve_eq_ok {β : Type} {mode : Mode} {text name : String}
    {view : Option (Field α) → β} {result : β}
    (succeeds : ((do
        Program.ofExcept ((expression text : Field α).rejectPending name)
        Program.stopIfCancelled
        let resolved ← (expression text : Field α).resolve mode
        return view resolved : Program β).run world none).result = .ok result) :
    ∃ resolved, (world.lookup text >>= ofAnswer mode text) = .ok resolved ∧
      view resolved = result := by
  obtain ⟨_, -, checked⟩ := Program.result_run_bind_eq_ok.mp succeeds
  obtain ⟨_, -, resolves⟩ := Program.result_run_bind_eq_ok.mp checked
  obtain ⟨resolved, ended, same⟩ := Program.result_run_bind_eq_ok.mp resolves
  refine ⟨resolved, ?_, Except.ok.inj same⟩
  simpa only [resolve, Program.result_run_bind, Program.run_ask, Program.run_ofExcept]
    using ended

/-- A field that is read from the evaluator, and not dropped, is read alike once it is
settled. -/
theorem matched_provisioned {mode : Mode} (kept : mode ≠ .drop)
    (field : Option (Field String)) (name : String) :
    Program.Matched world other (provisioned true field name mode)
      (plain (field.map (settled world.lookup)) name) := by
  match field with
  | none => exact Program.matched_pure none
  | some (.literal value) => exact fun _ ended => ended
  | some .pending => exact fun _ ended => ended
  | some (.resolved text value) => exact fun _ ended => ended
  | some (.expression text) =>
      intro result succeeds
      obtain ⟨resolved, read, rfl⟩ := exists_of_resolve_eq_ok succeeds
      rcases ofAnswer_eq_ok read with
        ⟨value, supplied, rfl⟩ | ⟨unsupplied, ⟨-, rfl⟩ | ⟨dropped, -⟩⟩
      · rw [Option.map_some, settled, supplied]
        rfl
      · rw [Option.map_some, settled, unsupplied]
        rfl
      · exact absurd dropped kept

/-- A field that is dropped without a value is read alike once it is settled or absent. -/
theorem matched_provisionedValue (field : Option (Field α)) (name : String) :
    Program.Matched world other (provisionedValue true field name .drop)
      (provisionedValue false (settledOrAbsent world.lookup field) name .drop) := by
  match field with
  | none => exact Program.matched_pure none
  | some (.literal value) => exact fun _ ended => ended
  | some .pending => exact fun _ ended => ended
  | some (.resolved text value) => exact fun _ ended => ended
  | some (.expression text) =>
      intro result succeeds
      obtain ⟨resolved, read, rfl⟩ := exists_of_resolve_eq_ok succeeds
      rcases ofAnswer_eq_ok read with
        ⟨value, supplied, rfl⟩ | ⟨unsupplied, ⟨kept, -⟩ | ⟨-, rfl⟩⟩
      · rw [settledOrAbsent, supplied]
        rfl
      · cases kept
      · rw [settledOrAbsent, unsupplied]
        rfl

/-- An expression that must have a value is supplied with one. -/
theorem exists_supplied?_of_strict {text name : String} {result : Option String}
    (succeeds : ((provisioned true (some (.expression text)) name .strict).run world
      none).result = .ok result) :
    ∃ value, supplied? String world.lookup text = some value := by
  obtain ⟨resolved, read, -⟩ := exists_of_resolve_eq_ok succeeds
  rcases ofAnswer_eq_ok read with ⟨value, supplied, -⟩ | ⟨-, ⟨⟨⟩, -⟩ | ⟨⟨⟩, -⟩⟩
  exact ⟨value, supplied⟩

end Field

end DeployTarget
