import DeployTarget.Proofs.ConnectorName
import DeployTarget.Proofs.Verdict

/-!
# Reading without the outside

A program that neither asks the outside nor stops at checkpoints runs alike in every
world, cancelled or not.  Checking a definition is such a program, and so is reading a
definition that is not dynamic.
-/

namespace DeployTarget

namespace Program

variable {α β : Type} {world : World} {cancelAfter : Option Nat} {begun : Nat}

/-- A program that only logs: it asks nothing and stops at no checkpoint. -/
def IsLocal : Program α → Prop
  | .done _ => True
  | .fail _ => True
  | .log _ rest => rest.IsLocal
  | .checkpoint _ => False
  | .lookup _ _ => False
  | .connector _ _ => False

theorem IsLocal.bind {program : Program α} {next : α → Program β} (isLocal : program.IsLocal)
    (localNext : ∀ value, (next value).IsLocal) : (program >>= next).IsLocal := by
  change (program.bind next).IsLocal
  induction program with
  | done value => exact localNext value
  | fail error => trivial
  | log event rest ih => exact ih isLocal
  | checkpoint rest ih => cases isLocal
  | lookup expression answer ih => cases isLocal
  | connector request answer ih => cases isLocal

theorem IsLocal.map {program : Program α} (isLocal : program.IsLocal) (change : α → β) :
    (change <$> program).IsLocal :=
  isLocal.bind fun _ => trivial

theorem isLocal_ofExcept (attempt : Except Error α) : (ofExcept attempt).IsLocal := by
  cases attempt <;> trivial

/-- A local program runs alike everywhere. -/
theorem IsLocal.runFrom_eq {program : Program α} (isLocal : program.IsLocal)
    (other : World) : program.runFrom world cancelAfter begun = program.run other none := by
  change _ = program.runFrom other none 0
  induction program with
  | done value => rfl
  | fail error => rfl
  | log event rest ih => exact congrArg (Run.logged event) (ih isLocal)
  | checkpoint rest ih => cases isLocal
  | lookup expression answer ih => cases isLocal
  | connector request answer ih => cases isLocal

theorem IsLocal.calls_runFrom {program : Program α} (isLocal : program.IsLocal) :
    (program.runFrom world cancelAfter begun).calls = [] := by
  induction program with
  | done value => rfl
  | fail error => rfl
  | log event rest ih => exact ih isLocal
  | checkpoint rest ih => cases isLocal
  | lookup expression answer ih => cases isLocal
  | connector request answer ih => cases isLocal

/-- What follows a local program begins with no call behind it. -/
theorem IsLocal.result_bind {program : Program α} (isLocal : program.IsLocal)
    (next : α → Program β) (other : World) :
    ((program >>= next).runFrom world cancelAfter begun).result =
      (program.run other none).result >>= fun value =>
        ((next value).runFrom world cancelAfter begun).result := by
  rw [runFrom_bind, Run.result_andThen, isLocal.calls_runFrom,
    isLocal.runFrom_eq other]
  rfl

end Program

open Program

namespace Field

theorem isLocal_plain (field : Option (Field String)) (name : String) :
    (plain field name).IsLocal := by
  cases field with
  | none => trivial
  | some field => exact (isLocal_ofExcept _).bind fun _ => trivial

theorem isLocal_provisionedText (field : Option (Field String)) (name : String)
    (mode : Mode) : (provisionedText false field name mode).IsLocal :=
  (isLocal_plain field name).bind fun _ => trivial

theorem isLocal_provisionedValue {α : Type} [FieldValue α] (field : Option (Field α))
    (name : String) (mode : Mode) : (provisionedValue false field name mode).IsLocal := by
  cases field with
  | none => trivial
  | some field => exact (isLocal_ofExcept _).bind fun _ => trivial

theorem isLocal_releaseName (service : Option Service) (field : Option (Field String)) :
    (releaseName false service field).IsLocal := by
  unfold releaseName
  split
  · trivial
  · exact isLocal_provisionedText field _ _

end Field

namespace Reading

theorem isLocal_read (reading : Reading) (surroundings : Surroundings)
    (definition : Definition) : (reading.read surroundings definition false).IsLocal := by
  obtain ⟨name, manner⟩ := reading
  cases manner with
  | plain => exact (Field.isLocal_plain _ _).bind fun _ => trivial
  | plainOrAbsent => exact Field.isLocal_plain _ _
  | plainOrBlank => exact (Field.isLocal_plain _ _).bind fun _ => trivial
  | provisioned => exact (Field.isLocal_provisionedText _ _ _).map some
  | release => exact (Field.isLocal_releaseName _ _).map some

theorem isLocal_readAll (surroundings : Surroundings) (definition : Definition)
    (readings : List Reading) : (readAll surroundings definition false readings).IsLocal := by
  induction readings with
  | nil => trivial
  | cons reading rest ih =>
      exact (reading.isLocal_read surroundings definition).bind fun _ => ih.map _

end Reading

namespace Definition

theorem isLocal_readVariables (entries : List Variable) : (readVariables entries).IsLocal := by
  induction entries with
  | nil => trivial
  | cons entry rest ih => exact (Field.isLocal_plain _ _).bind fun _ => ih.map _

theorem isLocal_readTarget (definition : Definition) (surroundings : Surroundings)
    (texts : Texts) : (definition.readTarget surroundings false texts).IsLocal := by
  unfold readTarget
  split
  · trivial
  · trivial
  · exact (Field.isLocal_provisionedValue _ _ _).bind fun _ =>
      (Reading.isLocal_readAll surroundings definition _).map _
  · exact (Field.isLocal_provisionedValue _ _ _).bind fun _ =>
      (Reading.isLocal_readAll surroundings definition _).map _
  · exact (isLocal_readVariables _).map _
  · trivial

/-- Reading a definition that is not dynamic needs nothing but the definition. -/
theorem isLocal_resolveFields (definition : Definition) (surroundings : Surroundings) :
    (definition.resolveFields surroundings false).IsLocal :=
  (Reading.isLocal_readAll surroundings definition _).bind fun texts =>
    definition.isLocal_readTarget surroundings texts

theorem isLocal_validate (definition : Definition) (environment : Environment) :
    (definition.validate environment).IsLocal := by
  have logged : definition.logNamespace.IsLocal := by
    unfold logNamespace
    split <;> trivial
  rw [validate_eq]
  exact (isLocal_ofExcept (definition.scan _)).bind fun _ =>
    logged.bind fun _ => isLocal_ofExcept _

/-- Checking decides alike in every run. -/
theorem result_validate (definition : Definition) (environment : Environment) (world : World)
    (cancelAfter : Option Nat) :
    ((definition.validate environment).run world cancelAfter).result =
      definition.verdict definition.isDynamic := by
  rw [run, (definition.isLocal_validate environment).runFrom_eq world]
  exact (definition.endsAs_validate environment).result world

/-- A resolution ends as the checks do, or else as the reads do, or else with the name of the
connector, before which the run may have been cancelled. -/
theorem result_resolve (definition : Definition) (surroundings : Surroundings) (world : World)
    (cancelAfter : Option Nat) :
    ((definition.resolve surroundings).run world cancelAfter).result = (do
      definition.verdict definition.isDynamic
      let base ← ((definition.resolveFields surroundings definition.isDynamic).run world
        cancelAfter).result
      if definition.refersToConnector && isCancelled cancelAfter
          ((definition.resolveFields surroundings definition.isDynamic).run world
            cancelAfter).calls.length then .error .cancelled
      else .ok (definition.withConnector world.connector surroundings.scope base)) := by
  have checks := definition.isLocal_validate surroundings.environment
  have logged (fields : List (String × String)) :
      (Program.tell .debug "resolving infrastructure" fields).IsLocal := trivial
  rw [resolve_eq, run, checks.result_bind _ world,
    (definition.endsAs_validate surroundings.environment).result world]
  refine bind_congr fun _ => ?_
  rw [(logged _).result_bind _ world, run_tell]
  change ((definition.resolveFields surroundings _ >>= _).runFrom _ _ _).result = _
  rw [runFrom_bind, Run.result_andThen]
  refine bind_congr fun base => ?_
  rw [runFrom_bind, Run.result_andThen, result_runFrom_addConnector, Nat.zero_add, run]
  split <;> rfl

end Definition

end DeployTarget
