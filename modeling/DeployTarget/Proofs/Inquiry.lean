import DeployTarget.Proofs.Run
import DeployTarget.Resolution

/-!
# What reading asks and how it fails

Reading a definition is a sequence of inquiries, one for each field that is read.  An
inquiry asks for the value of at most one expression, and it may end in a failure.
What is asked in all is what the inquiries ask up to the first one that fails.
-/

namespace DeployTarget

/-- One read of a field, seen from the outside. -/
structure Inquiry where
  question : Option String
  failure : Option Error

namespace Inquiry

/-- The inquiry that asks nothing and ends as an attempt does. -/
def attempt {α : Type} : Except Error α → Inquiry
  | .ok _ => ⟨none, none⟩
  | .error error => ⟨none, some error⟩

/-- The first failure in a sequence of inquiries. -/
def failure? (inquiries : List Inquiry) : Option Error :=
  inquiries.findSome? (·.failure)

/-- The calls of a sequence of inquiries, which ends with the first failure. -/
def calls : List Inquiry → List Call
  | [] => []
  | inquiry :: rest =>
      (inquiry.question.map Call.lookup).toList ++
        if inquiry.failure.isSome then [] else calls rest

theorem failure?_append (first second : List Inquiry) :
    failure? (first ++ second) = (failure? first).or (failure? second) := by
  rw [failure?, List.findSome?_append]
  rfl

theorem calls_append (first second : List Inquiry) :
    calls (first ++ second) =
      calls first ++ if (failure? first).isSome then [] else calls second := by
  induction first with
  | nil => rfl
  | cons inquiry rest ih =>
      obtain ⟨question, failure⟩ := inquiry
      cases failure with
      | none => simp [calls, failure?, ih]
      | some error => simp [calls, failure?]

theorem calls_singleton (inquiry : Inquiry) :
    calls [inquiry] = (inquiry.question.map Call.lookup).toList := by
  simp only [calls, ite_self, List.append_nil]

theorem failure?_cons (inquiry : Inquiry) (rest : List Inquiry) :
    failure? (inquiry :: rest) = inquiry.failure.or (failure? rest) := by
  rw [failure?, List.findSome?_cons]
  cases inquiry.failure <;> rfl

theorem failure?_singleton (inquiry : Inquiry) : failure? [inquiry] = inquiry.failure := by
  rw [failure?_cons]
  exact Option.or_none

/-- The inquiry of one expression whose answer is read. -/
def ask {α : Type} (lookup : String → Except Error (Option Json)) (expression : String)
    (read : Option Json → Except Error α) : Inquiry :=
  ⟨some expression, (attempt (lookup expression >>= read)).failure⟩

end Inquiry

/-- The failure that a run ends in. -/
def Run.failure? {α : Type} (run : Run α) : Option Error :=
  (Inquiry.attempt run.result).failure

namespace Run

variable {α : Type} {run : Run α}

theorem failure?_eq_some_iff {error : Error} :
    run.failure? = some error ↔ run.result = .error error := by
  cases ended : run.result <;> simp [failure?, Inquiry.attempt, ended]

theorem failure?_eq_none_iff : run.failure? = none ↔ ∃ value, run.result = .ok value := by
  cases ended : run.result <;> simp [failure?, Inquiry.attempt, ended]

end Run

namespace Program

variable {α β : Type} {world : World}

/-- A program that asks and fails as a sequence of inquiries does. -/
structure Makes (world : World) (program : Program α) (inquiries : List Inquiry) : Prop where
  calls : (program.run world none).calls = Inquiry.calls inquiries
  failure : (program.run world none).failure? = Inquiry.failure? inquiries

theorem Makes.bind {program : Program α} {next : α → Program β} {first second : List Inquiry}
    (made : program.Makes world first)
    (madeNext : ∀ value, (program.run world none).result = .ok value →
      (next value).Makes world second) :
    (program >>= next).Makes world (first ++ second) := by
  obtain ⟨calls, failure⟩ := made
  cases ended : (program.run world none).result with
  | ok value =>
      have succeeds : Inquiry.failure? first = none := by
        rw [← failure, Run.failure?, ended]
        rfl
      constructor
      · rw [run_bind, Run.andThen_of_ok ended, calls, (madeNext value ended).calls,
          Inquiry.calls_append, succeeds]
        rfl
      · rw [run_bind, Run.andThen_of_ok ended, Inquiry.failure?_append, succeeds,
          ← (madeNext value ended).failure]
        rfl
  | error error =>
      have fails : Inquiry.failure? first = some error := by
        rw [← failure, Run.failure?, ended]
        rfl
      constructor
      · rw [run_bind, Run.andThen_of_error ended, calls, Inquiry.calls_append, fails]
        simp
      · rw [run_bind, Run.andThen_of_error ended, Inquiry.failure?_append, fails]
        rfl

/-- A program that asks nothing is the inquiry of its attempt. -/
theorem EndsAs.makes {program : Program α} {attempt : Except Error α}
    (ends : program.EndsAs attempt) : program.Makes world [.attempt attempt] := by
  constructor
  · rw [ends.calls world]
    cases attempt <;> rfl
  · rw [Run.failure?, ends.result world]
    cases attempt <;> rfl

/-- A program that asks nothing and does not fail makes no inquiry. -/
theorem EndsAs.makes_nil {program : Program α} {value : α} (ends : program.EndsAs (.ok value)) :
    program.Makes world [] :=
  ⟨ends.calls world, by rw [Run.failure?, ends.result world]; rfl⟩

theorem makes_pure (value : α) : (pure value : Program α).Makes world [] :=
  ⟨rfl, rfl⟩

theorem makes_tell (level : Level) (message : String) (fields : List (String × String)) :
    (tell level message fields).Makes world [] :=
  ⟨rfl, rfl⟩

theorem makes_stopIfCancelled : stopIfCancelled.Makes world [] :=
  ⟨rfl, rfl⟩

theorem Makes.map {program : Program α} {inquiries : List Inquiry}
    (made : program.Makes world inquiries) (change : α → β) :
    (change <$> program).Makes world inquiries := by
  have mapped : (change <$> program).Makes world (inquiries ++ []) :=
    made.bind fun _ _ => makes_pure _
  rwa [List.append_nil] at mapped

/-- Asking for an expression and reading the answer is one inquiry. -/
theorem makes_ask (expression : String) (read : Option Json → Except Error α) :
    (ask expression >>= fun answer => ofExcept (read answer)).Makes world
      [.ask world.lookup expression read] := by
  constructor
  · rw [run_bind, run_ask, Inquiry.calls_singleton]
    cases world.lookup expression with
    | error error => rfl
    | ok answer => simp [Run.andThen, Inquiry.ask]
  · rw [Run.failure?, result_run_bind, run_ask]
    simp only [run_ofExcept, Inquiry.failure?, Inquiry.ask, List.findSome?_cons,
      List.findSome?_nil]
    cases (Inquiry.attempt (world.lookup expression >>= read)).failure <;> rfl

end Program

namespace Field

variable {α : Type}

/-- What it takes to read a field as it is written: pending input is a failure. -/
def writtenInquiry (field : Option (Field α)) (name : String) : Inquiry where
  question := none
  failure := match field with
    | some .pending => some (.invalidRequest (.runtimeInput name))
    | _ => none

/-- Whether a field is there and waits for runtime input. -/
def waits (field : Option (Field α)) : Bool :=
  field.any isPending

theorem waits_eq_false_iff {field : Option (Field α)} :
    waits field = false ↔ field ≠ some .pending := by
  rcases field with - | (_ | _ | _ | _) <;> simp [waits, isPending]

theorem failure_writtenInquiry (field : Option (Field α)) (name : String) :
    (writtenInquiry field name).failure =
      if waits field then some (.invalidRequest (.runtimeInput name)) else none := by
  cases field with
  | none => rfl
  | some field => cases field <;> rfl

/-- What it takes to read a field that may come from a provisioner: in a dynamic
definition an expression without a value is asked for. -/
def inquiry [FieldValue α] (dynamic : Bool) (lookup : String → Except Error (Option Json))
    (mode : Mode) (field : Option (Field α)) (name : String) : Inquiry :=
  match dynamic, field with
  | true, some (.expression text) => .ask lookup text (ofAnswer (α := α) mode text)
  | _, field => writtenInquiry field name

theorem question_inquiry [FieldValue α] (dynamic : Bool)
    (lookup : String → Except Error (Option Json)) (mode : Mode) (field : Option (Field α))
    (name : String) :
    (inquiry dynamic lookup mode field name).question =
      if dynamic then field.bind unresolved? else none := by
  cases dynamic with
  | false => rfl
  | true =>
      cases field with
      | none => rfl
      | some field => cases field <;> rfl

variable {world : World}

/-- The text of a field as it is written. -/
def written (field : Option (Field String)) (name : String) : Except Error (Option String) :=
  match field with
  | none => .ok none
  | some field => do
      field.rejectPending name
      return field.valueOrExpression?

theorem endsAs_plain (field : Option (Field String)) (name : String) :
    (plain field name).EndsAs (written field name) := by
  cases field with
  | none => exact Program.endsAs_pure none
  | some field => exact (Program.endsAs_ofExcept _).bind fun _ => Program.endsAs_pure _

/-- Only pending input keeps a field from being read as it is written. -/
theorem written_eq_ok_iff {field : Option (Field String)} {name : String}
    {text : Option String} :
    written field name = .ok text ↔
      field ≠ some .pending ∧ field.bind valueOrExpression? = text := by
  cases field with
  | none => simp [written]
  | some field =>
      cases field <;> simp [written, rejectPending, isPending, bind, Except.bind, pure, Except.pure]

/-- A field with a value is not asked for in any definition. -/
theorem endsAs_provisionedValue [FieldValue α] {field : Field α} {value : α}
    (valued : field.value? = some value) (dynamic : Bool) (name : String) (mode : Mode) :
    (provisionedValue dynamic (some field) name mode).EndsAs (.ok (some value)) := by
  cases field with
  | literal other =>
      cases valued
      cases dynamic <;> exact ⟨fun _ => rfl, fun _ => rfl⟩
  | resolved text other =>
      cases valued
      cases dynamic <;> exact ⟨fun _ => rfl, fun _ => rfl⟩
  | pending => cases valued
  | expression text => cases valued

theorem makes_rejectPending (field : Field α) (name : String) :
    (Program.ofExcept (field.rejectPending name)).Makes world
      [writtenInquiry (some field) name] := by
  have ends := Program.endsAs_ofExcept (field.rejectPending name)
  cases field <;> exact ends.makes

theorem makes_plain (field : Option (Field String)) (name : String) :
    (plain field name).Makes world [writtenInquiry field name] := by
  cases field with
  | none => exact (Program.endsAs_pure none).makes
  | some field => exact (makes_rejectPending field name).bind fun _ _ => Program.makes_pure _

/-- Behind its checkpoint, a field asks for its expression and for nothing else. -/
theorem makes_resolve [FieldValue α] {β : Type} (mode : Mode) (field : Field α)
    (name : String) (view : Option (Field α) → β) :
    (do Program.ofExcept (field.rejectPending name)
        Program.stopIfCancelled
        let resolved ← field.resolve mode
        return view resolved).Makes world
      [inquiry true world.lookup mode (some field) name] := by
  have rejected : Program.Makes world _ _ := makes_rejectPending field name
  cases field with
  | expression text =>
      have asked : Program.Makes world _ _ :=
        Program.makes_ask text (ofAnswer (α := α) mode text)
      exact Program.Makes.bind (Program.makes_pure ()) fun _ _ =>
        Program.makes_stopIfCancelled.bind fun _ _ => asked.map view
  | literal value =>
      exact rejected.bind fun _ _ =>
        Program.makes_stopIfCancelled.bind fun _ _ => Program.makes_pure _
  | pending =>
      exact rejected.bind fun _ _ =>
        Program.makes_stopIfCancelled.bind fun _ _ => Program.makes_pure _
  | resolved text value =>
      exact rejected.bind fun _ _ =>
        Program.makes_stopIfCancelled.bind fun _ _ => Program.makes_pure _

theorem makes_provisioned (dynamic : Bool) (field : Option (Field String)) (name : String)
    (mode : Mode) :
    (provisioned dynamic field name mode).Makes world
      [inquiry dynamic world.lookup mode field name] := by
  cases dynamic with
  | false => exact makes_plain field name
  | true =>
      cases field with
      | none => exact (Program.endsAs_pure none).makes
      | some field =>
          exact makes_resolve mode field name fun resolved => resolved.bind valueOrExpression?

theorem makes_provisionedText (dynamic : Bool) (field : Option (Field String)) (name : String)
    (mode : Mode) :
    (provisionedText dynamic field name mode).Makes world
      [inquiry dynamic world.lookup mode field name] :=
  (makes_provisioned dynamic field name mode).map fun text => text.getD ""

theorem makes_provisionedValue [FieldValue α] (dynamic : Bool) (field : Option (Field α))
    (name : String) (mode : Mode) :
    (provisionedValue dynamic field name mode).Makes world
      [inquiry dynamic world.lookup mode field name] := by
  cases field with
  | none => cases dynamic <;> exact (Program.endsAs_pure none).makes
  | some field =>
      cases dynamic with
      | false =>
          exact (makes_rejectPending field name).bind fun _ _ => Program.makes_pure _
      | true => exact makes_resolve mode field name fun resolved => resolved.bind value?

end Field

namespace Reading

variable {world : World}

/-- The inquiries of one reading.  A release name that the service pins is not read. -/
def inquiries (reading : Reading) (service : Option Service) (definition : Definition)
    (dynamic : Bool) (lookup : String → Except Error (Option Json)) : List Inquiry :=
  let field := definition.text reading.name
  match reading.manner with
  | .plain | .plainOrAbsent | .plainOrBlank =>
      [Field.writtenInquiry field reading.name.name]
  | .provisioned => [Field.inquiry dynamic lookup .strict field reading.name.name]
  | .release =>
      match service.bind Service.release? with
      | some _ => []
      | none => [Field.inquiry dynamic lookup .keep field Attribute.releaseName.name]

theorem makes_read (reading : Reading) (surroundings : Surroundings) (definition : Definition)
    (dynamic : Bool) :
    (reading.read surroundings definition dynamic).Makes world
      (reading.inquiries surroundings.service definition dynamic world.lookup) := by
  obtain ⟨name, manner⟩ := reading
  cases manner with
  | plain => exact (Field.makes_plain _ _).map fun text => some (text.getD "")
  | plainOrAbsent => exact Field.makes_plain _ _
  | plainOrBlank => exact (Field.makes_plain _ _).map fun text => text.filter (· ≠ "")
  | provisioned => exact (Field.makes_provisionedText dynamic _ _ _).map some
  | release =>
      refine Program.Makes.map ?_ some
      simp only [inquiries, Field.releaseName]
      cases surroundings.service.bind Service.release? with
      | some release => exact Program.makes_pure release
      | none => exact Field.makes_provisionedText dynamic _ _ _

theorem makes_readAll (surroundings : Surroundings) (definition : Definition)
    (dynamic : Bool) (readings : List Reading) :
    (readAll surroundings definition dynamic readings).Makes world
      (readings.flatMap fun reading =>
        reading.inquiries surroundings.service definition dynamic world.lookup) := by
  induction readings with
  | nil => exact Program.makes_pure []
  | cons reading rest ih =>
      rw [List.flatMap_cons]
      exact (reading.makes_read surroundings definition dynamic).bind fun _ _ => ih.map _

end Reading

end DeployTarget
