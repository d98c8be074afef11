import DeployTarget.Proofs.Run
import DeployTarget.Resolution

/-!
# What a program logs

A program can be stripped of its entries to the log.  Stripped, it makes the same calls and
ends in the same way, and stripping commutes with sequencing, so that two programs which
differ in what they log are compared by what is left of them.  Reading a field logs nothing.
-/

namespace DeployTarget

namespace Program

variable {α β : Type} {world : World} {cancelAfter : Option Nat} {begun : Nat}

/-- The program without its entries to the log. -/
def unlogged : Program α → Program α
  | .done value => .done value
  | .fail error => .fail error
  | .log _ rest => rest.unlogged
  | .checkpoint rest => .checkpoint rest.unlogged
  | .lookup expression next => .lookup expression fun answer => (next answer).unlogged
  | .connector request next => .connector request fun answer => (next answer).unlogged

theorem unlogged_bind (program : Program α) (next : α → Program β) :
    (program >>= next).unlogged = program.unlogged >>= fun value => (next value).unlogged := by
  change (program.bind next).unlogged = program.unlogged.bind fun value => (next value).unlogged
  induction program with
  | done value => rfl
  | fail error => rfl
  | log event rest ih => exact ih
  | checkpoint rest ih => exact congrArg Program.checkpoint ih
  | lookup expression answer ih => exact congrArg (Program.lookup expression) (funext ih)
  | connector request answer ih => exact congrArg (Program.connector request) (funext ih)

@[simp]
theorem unlogged_tell (level : Level) (message : String) (fields : List (String × String)) :
    (tell level message fields).unlogged = pure () :=
  rfl

/-- Without its entries to the log, a program makes the same calls and ends in the same
way. -/
theorem runFrom_unlogged (program : Program α) :
    program.unlogged.runFrom world cancelAfter begun =
      { program.runFrom world cancelAfter begun with events := [] } := by
  induction program generalizing begun with
  | done value => rfl
  | fail error => rfl
  | log event rest ih => exact ih
  | checkpoint rest ih =>
      simp only [unlogged, runFrom]
      split
      · rfl
      · exact ih
  | lookup expression answer ih =>
      simp only [unlogged, runFrom]
      cases world.lookup expression with
      | error error => rfl
      | ok value => simp only [ih]; rfl
  | connector request answer ih =>
      simp only [unlogged, runFrom, ih]
      rfl

/-- Programs that differ in what they log make the same calls and end in the same way. -/
theorem run_congr {first second : Program α} (same : first.unlogged = second.unlogged) :
    (first.run world cancelAfter).calls = (second.run world cancelAfter).calls ∧
      (first.run world cancelAfter).result = (second.run world cancelAfter).result := by
  have stripped : first.unlogged.runFrom world cancelAfter 0 =
      second.unlogged.runFrom world cancelAfter 0 := by rw [same]
  rw [runFrom_unlogged, runFrom_unlogged, Run.mk.injEq] at stripped
  exact stripped.2

/-! ## Programs that log nothing -/

/-- Says that a program logs nothing, whatever it is answered. -/
def Silent (program : Program α) : Prop :=
  program.unlogged = program

theorem Silent.events {program : Program α} (silent : program.Silent) :
    (program.run world cancelAfter).events = [] := by
  rw [← silent, run, runFrom_unlogged]

/-- In front of another program, a silent one leaves the log to it. -/
theorem Silent.events_bind {program : Program α} {next : α → Program β} {value : α}
    (silent : program.Silent) (ended : (program.run world none).result = .ok value) :
    ((program >>= next).run world none).events = ((next value).run world none).events := by
  rw [run_bind, Run.andThen_of_ok ended, silent.events, List.nil_append]

theorem silent_pure (value : α) : (pure value : Program α).Silent :=
  rfl

theorem silent_ofExcept (attempt : Except Error α) : (ofExcept attempt).Silent := by
  cases attempt <;> rfl

theorem silent_stopIfCancelled : stopIfCancelled.Silent :=
  rfl

theorem silent_ask (expression : String) : (ask expression).Silent :=
  rfl

theorem Silent.bind {program : Program α} {next : α → Program β} (first : program.Silent)
    (second : ∀ value, (next value).Silent) : (program >>= next).Silent := by
  rw [Silent, unlogged_bind, first]
  exact congrArg (program >>= ·) (funext second)

theorem Silent.map {program : Program α} (silent : program.Silent) (change : α → β) :
    (change <$> program).Silent :=
  silent.bind fun _ => silent_pure _

theorem silent_hostObjects (expression : String) : (hostObjects expression).Silent := by
  refine (silent_ask expression).bind fun answer => ?_
  match answer with
  | none => rfl
  | some (.array objects) => rfl
  | some .null | some (.bool _) | some (.number _) | some (.string _)
  | some (.object _) => rfl

end Program

/-! ## Reading fields -/

namespace Field

open Program

variable {α : Type} [FieldValue α]

theorem silent_resolve (mode : Mode) (field : Field α) : (field.resolve mode).Silent := by
  cases field with
  | expression text => exact (silent_ask text).bind fun _ => silent_ofExcept _
  | literal _ | pending | resolved _ _ => exact silent_pure _

theorem silent_plain (field : Option (Field String)) (name : String) :
    (plain field name).Silent := by
  cases field with
  | none => exact silent_pure none
  | some field => exact (silent_ofExcept _).bind fun _ => silent_pure _

theorem silent_provisioned (dynamic : Bool) (field : Option (Field String)) (name : String)
    (mode : Mode) : (provisioned dynamic field name mode).Silent := by
  cases dynamic with
  | false => exact silent_plain field name
  | true =>
      cases field with
      | none => exact silent_pure none
      | some field =>
          exact (silent_ofExcept _).bind fun _ => silent_stopIfCancelled.bind fun _ =>
            (silent_resolve mode field).map _

theorem silent_provisionedText (dynamic : Bool) (field : Option (Field String)) (name : String)
    (mode : Mode) : (provisionedText dynamic field name mode).Silent :=
  (silent_provisioned dynamic field name mode).map _

theorem silent_provisionedValue (dynamic : Bool) (field : Option (Field α)) (name : String)
    (mode : Mode) : (provisionedValue dynamic field name mode).Silent := by
  cases field with
  | none => exact silent_pure none
  | some field =>
      refine (silent_ofExcept _).bind fun _ => ?_
      cases dynamic with
      | false => exact silent_pure _
      | true =>
          exact silent_stopIfCancelled.bind fun _ => (silent_resolve mode field).map _

theorem silent_releaseName (dynamic : Bool) (service : Option Service)
    (field : Option (Field String)) : (releaseName dynamic service field).Silent := by
  unfold releaseName
  split
  · exact silent_pure _
  · exact silent_provisionedText dynamic field _ _

end Field

namespace Reading

open Program

theorem silent_read (reading : Reading) (surroundings : Surroundings)
    (definition : Definition) (dynamic : Bool) :
    (reading.read surroundings definition dynamic).Silent := by
  obtain ⟨name, manner⟩ := reading
  cases manner with
  | plain | plainOrBlank => exact (Field.silent_plain _ _).map _
  | plainOrAbsent => exact Field.silent_plain _ _
  | provisioned => exact (Field.silent_provisionedText dynamic _ _ _).map _
  | release => exact (Field.silent_releaseName dynamic _ _).map _

/-- Reading the texts of a definition logs nothing. -/
theorem silent_readAll (surroundings : Surroundings) (definition : Definition)
    (dynamic : Bool) (readings : List Reading) :
    (readAll surroundings definition dynamic readings).Silent := by
  induction readings with
  | nil => exact silent_pure []
  | cons reading rest ih =>
      exact (reading.silent_read surroundings definition dynamic).bind fun _ => ih.map _

end Reading

end DeployTarget
