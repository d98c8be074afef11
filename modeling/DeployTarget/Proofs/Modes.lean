import DeployTarget.Expression.Mode
import DeployTarget.Proofs.Run

/-!
# The modes of resolving

The mode in which a field is resolved matters only where an expression has no value, because the
answer is missing or null.  A value that is supplied, a value of the wrong type and a refusal of the
evaluator end the same way in every mode.  A field that comes back has the expression that it had
before, and one with a value is not asked for again.
-/

namespace DeployTarget

namespace Field

variable {α : Type} [FieldValue α] {world : World}

/-- Says that a field is an expression for which a world has no value: it answers nothing, or
null. -/
def LacksValue (world : World) (field : Field α) : Prop :=
  ∃ text, field.unresolved? = some text ∧
    (world.lookup text = .ok none ∨ world.lookup text = .ok (some .null))

/-! ## Answers -/

/-- An answer other than null is read in the same way in every mode. -/
theorem ofAnswer_of_ne_null {raw : Json} (value : raw ≠ .null) (mode other : Mode)
    (text : String) :
    (ofAnswer mode text (some raw) : Except Error (Option (Field α))) =
      ofAnswer other text (some raw) := by
  have kept : (some raw).filter (!·.isNull) = some raw := by
    cases raw with
    | null => exact absurd rfl value
    | _ => rfl
  simp only [ofAnswer, kept]

/-- The text of the expression stays what it is asked for. -/
theorem expressionText?_of_ofAnswer {mode : Mode} {text : String} {answer : Option Json}
    {read : Field α} (succeeds : ofAnswer mode text answer = .ok (some read)) :
    read.expressionText? = some text := by
  unfold ofAnswer at succeeds
  split at succeeds
  · split at succeeds
    · cases succeeds
      rfl
    · cases succeeds
  · cases mode <;> cases succeeds
    rfl

/-- An answer that keeps its field leaves nothing out. -/
theorem ofAnswer_keep_ne_none {text : String} {answer : Option Json} :
    (ofAnswer .keep text answer : Except Error (Option (Field α))) ≠ .ok none := by
  intro dropped
  unfold ofAnswer at dropped
  split at dropped
  · split at dropped <;> cases dropped
  · cases dropped

/-! ## Runs -/

/-- A field that is no expression without a value comes back as it is, and is not asked for. -/
theorem run_resolve_of_unresolved?_eq_none {field : Field α} (settled : field.unresolved? = none)
    (mode : Mode) (world : World) (cancelAfter : Option Nat) :
    (field.resolve mode).run world cancelAfter = ⟨[], [], .ok (some field)⟩ := by
  cases field with
  | expression text => cases settled
  | literal value => rfl
  | pending => rfl
  | resolved text value => rfl

/-- An expression without a value is asked for once, and ends as its answer is read. -/
theorem run_resolve_expression (text : String) (mode : Mode) (world : World)
    (cancelAfter : Option Nat) :
    ((expression text : Field α).resolve mode).run world cancelAfter =
      ⟨[], [.lookup text], world.lookup text >>= ofAnswer mode text⟩ := by
  change Program.runFrom world cancelAfter 0 (.lookup text fun answer =>
    Program.ofExcept (ofAnswer mode text answer)) = _
  rw [Program.runFrom]
  cases world.lookup text with
  | error error => rfl
  | ok answer =>
      change Run.called _ (Program.runFrom world cancelAfter 1
        (Program.ofExcept (ofAnswer mode text answer))) =
          ⟨[], [.lookup text], ofAnswer mode text answer⟩
      cases ofAnswer (α := α) mode text answer <;> rfl

/-- A field for which there is a value, a refusal or nothing to ask ends alike in all modes. -/
theorem run_resolve_eq {field : Field α} (answered : ¬ field.LacksValue world)
    (mode other : Mode) (cancelAfter : Option Nat) :
    (field.resolve mode).run world cancelAfter = (field.resolve other).run world cancelAfter := by
  cases unresolved : field.unresolved? with
  | none =>
      rw [run_resolve_of_unresolved?_eq_none unresolved,
        run_resolve_of_unresolved?_eq_none unresolved]
  | some text =>
      cases field with
      | literal | pending | resolved => cases unresolved
      | expression text =>
          rw [run_resolve_expression, run_resolve_expression]
          cases answer : world.lookup text with
          | error error => rfl
          | ok found =>
              cases found with
              | none => exact absurd ⟨text, rfl, .inl answer⟩ answered
              | some raw =>
                  have value : raw ≠ .null := by
                    rintro rfl
                    exact answered ⟨text, rfl, .inr answer⟩
                  exact congrArg (Run.mk [] [.lookup text])
                    (ofAnswer_of_ne_null value mode other text)

/-- A field for which there is no value ends as the mode says. -/
theorem result_resolve_of_lacksValue {field : Field α} (lacks : field.LacksValue world)
    (mode : Mode) (cancelAfter : Option Nat) :
    ∃ text, field.unresolved? = some text ∧
      ((field.resolve mode).run world cancelAfter).result =
        match mode with
        | .strict => .error (.resolution text .noValue)
        | .keep => .ok (some field)
        | .drop => .ok none := by
  obtain ⟨text, unresolved, missing⟩ := lacks
  refine ⟨text, unresolved, ?_⟩
  cases field with
  | literal | pending | resolved => cases unresolved
  | expression text =>
      cases unresolved
      rw [run_resolve_expression]
      rcases missing with missing | missing <;> rw [missing] <;> cases mode <;> rfl

/-- A field that comes back has the expression that it had. -/
theorem expressionText?_of_resolve {field read : Field α} {mode : Mode}
    {cancelAfter : Option Nat}
    (succeeds : ((field.resolve mode).run world cancelAfter).result = .ok (some read)) :
    read.expressionText? = field.expressionText? := by
  cases field with
  | literal | pending | resolved =>
      rw [run_resolve_of_unresolved?_eq_none rfl] at succeeds
      cases succeeds
      rfl
  | expression text =>
      rw [run_resolve_expression] at succeeds
      cases answer : world.lookup text with
      | error error =>
          rw [answer] at succeeds
          cases succeeds
      | ok found =>
          rw [answer] at succeeds
          exact expressionText?_of_ofAnswer succeeds

/-- A field that is kept where it has no value is not left out. -/
theorem result_resolve_keep_ne_none (field : Field α) (cancelAfter : Option Nat) :
    ((field.resolve .keep).run world cancelAfter).result ≠ .ok none := by
  intro dropped
  cases field with
  | literal | pending | resolved => cases dropped
  | expression text =>
      rw [run_resolve_expression] at dropped
      cases answer : world.lookup text with
      | error error =>
          rw [answer] at dropped
          cases dropped
      | ok found =>
          rw [answer] at dropped
          exact ofAnswer_keep_ne_none dropped

/-- A field is left out only where it lacks a value and the mode says so. -/
theorem result_resolve_eq_none_iff {field : Field α} {mode : Mode} {cancelAfter : Option Nat} :
    ((field.resolve mode).run world cancelAfter).result = .ok none ↔
      mode = .drop ∧ field.LacksValue world := by
  constructor
  · intro dropped
    by_cases lacks : field.LacksValue world
    · obtain ⟨text, -, ended⟩ := result_resolve_of_lacksValue lacks mode cancelAfter
      rw [ended] at dropped
      cases mode with
      | strict => cases dropped
      | keep => cases dropped
      | drop => exact ⟨rfl, lacks⟩
    · -- A field that has an answer would be left out in the other modes, too.
      rw [run_resolve_eq lacks mode .keep] at dropped
      exact absurd dropped (field.result_resolve_keep_ne_none cancelAfter)
  · rintro ⟨rfl, lacks⟩
    obtain ⟨text, -, ended⟩ := result_resolve_of_lacksValue lacks .drop cancelAfter
    exact ended

/-- The modes of resolving differ only on expressions without a value.  What succeeds in the strict
mode, and what fails there for another reason, ends the same way in every mode.  An expression
without a value fails in the strict mode, is kept in the second and left out in the third, and
nothing else is ever left out.  Neither resolving nor attaching a value changes the expression of
a field, and one with a value comes back as it is without being asked for. -/
theorem resolve_modes (field : Field α) (world : World) (cancelAfter : Option Nat) :
    let result (mode : Mode) := ((field.resolve mode).run world cancelAfter).result
    (∀ read, result .strict = .ok read → ∀ mode, result mode = .ok read) ∧
    (∀ error, result .strict = .error error → ¬ field.LacksValue world →
      ∀ mode, result mode = .error error) ∧
    (field.LacksValue world →
      (∃ text, field.unresolved? = some text ∧
        result .strict = .error (.resolution text .noValue)) ∧
      result .keep = .ok (some field) ∧ result .drop = .ok none) ∧
    (∀ mode, result mode = .ok none ↔ mode = .drop ∧ field.LacksValue world) ∧
    (∀ mode read, result mode = .ok (some read) →
      read.expressionText? = field.expressionText?) ∧
    (∀ value, (field.attach value).expressionText? = field.expressionText?) ∧
    ∀ text value, field = .resolved text value → ∀ mode,
      (field.resolve mode).run world cancelAfter = ⟨[], [], .ok (some field)⟩ := by
  intro result
  have alike (answered : ¬ field.LacksValue world) (mode : Mode) : result mode = result .strict :=
    congrArg Run.result (run_resolve_eq answered mode .strict cancelAfter)
  refine ⟨?_, ?_, ?_, fun mode => result_resolve_eq_none_iff,
    fun mode read => expressionText?_of_resolve, ?_, ?_⟩
  · intro read succeeds mode
    rw [alike ?_ mode, succeeds]
    intro lacks
    obtain ⟨text, -, fails⟩ := result_resolve_of_lacksValue lacks .strict cancelAfter
    change result .strict = _ at fails
    rw [succeeds] at fails
    cases fails
  · intro error fails answered mode
    rw [alike answered mode, fails]
  · intro lacks
    obtain ⟨text, unresolved, fails⟩ := result_resolve_of_lacksValue lacks .strict cancelAfter
    obtain ⟨_, -, kept⟩ := result_resolve_of_lacksValue lacks .keep cancelAfter
    obtain ⟨_, -, dropped⟩ := result_resolve_of_lacksValue lacks .drop cancelAfter
    exact ⟨⟨text, unresolved, fails⟩, kept, dropped⟩
  · intro value
    cases field <;> rfl
  · rintro text value rfl mode
    exact run_resolve_of_unresolved?_eq_none rfl mode world cancelAfter

end Field

end DeployTarget
