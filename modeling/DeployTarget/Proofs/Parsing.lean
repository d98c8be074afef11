import DeployTarget.Definition.Reader
import DeployTarget.Proofs.Classification
import DeployTarget.Proofs.Reads

/-!
# Definitions that have been read

A text attribute of a definition that was read from a document is what plain data at its
place yields.  So it is an expression only if it holds a reference, and no such definition
has an empty expression.
-/

namespace DeployTarget

namespace Field

/-- An empty text holds no reference. -/
theorem ne_empty_of_isExpressionText {text : String} (holds : isExpressionText text = true) :
    text ≠ "" := by
  rintro rfl
  exact absurd holds (by decide)

variable {α : Type} [FieldValue α] {field : Field α}

/-- Plain data is read as an expression only if it is a text that holds a reference. -/
theorem isExpressionText_of_ofJson {raw : Json} {text : String}
    (read : ofJson (α := α) raw = .ok (.expression text)) : isExpressionText text = true := by
  cases ofJson_eq_ok_iff.mp read with
  | expression written noInput holds => exact holds

variable {ν : Type} [Source.Typed ν]

theorem exists_ofJson_of_read? {data : ν} (read : read? data = some field) :
    ∃ raw, ofJson raw = .ok field := by
  obtain ⟨raw, -, yields⟩ := Option.bind_eq_some_iff.mp read
  cases attempt : ofJson (α := α) raw.canonical with
  | error mismatch =>
      rw [attempt] at yields
      cases yields
  | ok result =>
      rw [attempt] at yields
      cases yields
      exact ⟨_, attempt⟩

theorem exists_ofJson_of_readOptional? {entries : List (String × ν)} {name : String}
    (read : readOptional? entries name = some (some field)) : ∃ raw, ofJson raw = .ok field := by
  unfold readOptional? Source.optional at read
  split at read
  next data found =>
    unfold Source.option? at read
    split at read
    · cases read
    · obtain ⟨other, readOther, same⟩ := Option.map_eq_some_iff.mp read
      cases same
      exact exists_ofJson_of_read? readOther
  · cases read

end Field

namespace Choice

/-- What holds of every body that is read holds of the choice. -/
theorem of_read? {ν α : Type} [Source.Typed ν]
    {readBody : {μ : Type} → [Source.Typed μ] → String → Option μ → Option α}
    (holds : α → Prop)
    (bodies : ∀ {μ : Type} [Source.Typed μ] (tag : String) (body : Option μ) (result : α),
      readBody tag body = some result → holds result)
    {data : ν} {result : α} (read : Choice.read? readBody data = some result) : holds result := by
  unfold Choice.read? at read
  obtain ⟨entries, -, read⟩ := Option.bind_eq_some_iff.mp read
  split at read
  · cases read
  next first value rest _ =>
    split at read
    · obtain ⟨tag, -, read⟩ := Option.bind_eq_some_iff.mp read
      exact bodies _ _ _ read
    · obtain ⟨body, -, read⟩ := Option.bind_eq_some_iff.mp read
      obtain ⟨tag, -, read⟩ := Option.bind_eq_some_iff.mp read
      exact bodies _ _ _ read
  · cases read

end Choice

namespace Definition

theorem exists_ofJson_of_readTexts? {ν : Type} [Source.Typed ν] {kind : Kind}
    {entries : List (String × ν)} {text : Attribute → Option (Field String)}
    (read : readTexts? kind entries = some text) {name : Attribute} {field : Field String}
    (written : text name = some field) : ∃ raw, Field.ofJson raw = .ok field := by
  obtain ⟨fields, readFields, same⟩ := Option.bind_eq_some_iff.mp read
  cases same
  obtain ⟨before, behind, rfl, -⟩ :=
    List.lookup_eq_some_iff.mp (Option.join_eq_some_iff.mp written)
  obtain ⟨other, -, readOne⟩ := exists_of_mem_mapM readFields (name, some field) (by simp)
  obtain ⟨found, readField, same⟩ := Option.bind_eq_some_iff.mp readOne
  cases same
  exact Field.exists_ofJson_of_readOptional? readField

/-- A definition that is read from a value is the choice that the value holds. -/
theorem read?_of_ofValue {value : Yaml.Value} {definition : Definition}
    (parsed : ofValue value = .ok definition) :
    Choice.read? readBody? value = some definition := by
  unfold ofValue at parsed
  split at parsed
  · cases parsed
  · split at parsed
    · cases parsed
    · split at parsed
      · cases parsed
        assumption
      · cases parsed

/-- A text of a definition that was read is what plain data yields. -/
theorem exists_ofJson_of_ofValue {value : Yaml.Value} {definition : Definition}
    (parsed : ofValue value = .ok definition) {name : Attribute} {field : Field String}
    (written : definition.text name = some field) : ∃ raw, Field.ofJson raw = .ok field := by
  refine Choice.of_read? (fun definition => definition.text name = some field →
    ∃ raw, Field.ofJson raw = .ok field) ?_ (read?_of_ofValue parsed) written
  intro μ _ tag body result read written
  obtain ⟨kind, -, read⟩ := Option.bind_eq_some_iff.mp read
  obtain ⟨entries, -, read⟩ := Option.bind_eq_some_iff.mp read
  obtain ⟨own, -, read⟩ := Option.bind_eq_some_iff.mp read
  obtain ⟨others, -, read⟩ := Option.bind_eq_some_iff.mp read
  obtain ⟨details, -, read⟩ := Option.bind_eq_some_iff.mp read
  obtain ⟨text, readTexts, read⟩ := Option.bind_eq_some_iff.mp read
  obtain ⟨target, -, same⟩ := Option.bind_eq_some_iff.mp read
  cases same
  exact exists_ofJson_of_readTexts? readTexts written

end Definition

end DeployTarget
