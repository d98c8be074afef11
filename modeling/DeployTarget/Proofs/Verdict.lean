import DeployTarget.Proofs.Run
import DeployTarget.Validation

/-!
# What checking decides

Checking a definition asks nothing of the outside.  Its verdict is a function of the
definition and of whether fields come from a provisioner, and a definition passes if
and only if each of its rules holds.
-/

namespace DeployTarget

/-- A sequence of two checks passes if and only if both do. -/
theorem bind_eq_ok_unit {first : Except Error Unit} {next : Unit → Except Error Unit} :
    (first >>= next) = .ok () ↔ first = .ok () ∧ next () = .ok () := by
  cases first <;> simp [bind, Except.bind]

theorem forM_eq_ok {α : Type} {check : α → Except Error Unit} {items : List α} :
    items.forM check = .ok () ↔ ∀ item ∈ items, check item = .ok () := by
  induction items with
  | nil => simp [List.forM, pure, Except.pure]
  | cons item rest ih =>
      change (check item >>= fun _ => rest.forM check) = _ ↔ _
      rw [bind_eq_ok_unit, ih, List.forall_mem_cons]

/-- Items that are checked alike are checked alike as a sequence. -/
theorem forM_congr {α : Type} {first second : α → Except Error Unit} {items : List α}
    (same : ∀ item ∈ items, first item = second item) :
    items.forM first = items.forM second := by
  induction items with
  | nil => rfl
  | cons item rest ih =>
      obtain ⟨sameItem, sameRest⟩ := List.forall_mem_cons.mp same
      change (first item >>= fun _ => rest.forM first) =
        (second item >>= fun _ => rest.forM second)
      rw [sameItem, ih sameRest]

/-- What a kind demands is among its attributes. -/
theorem Kind.mem_attributes_of_requirement (kind : Kind) :
    ∀ requirement ∈ kind.requirements, requirement.name ∈ kind.attributes := by
  cases kind <;> decide

namespace Validation

/-- The scan passes if and only if it meets no expression without a value. -/
theorem ensureResolved_eq_ok {unresolved : List (Option String)} :
    ensureResolved unresolved = .ok () ↔ ∀ text ∈ unresolved, text = none := by
  rw [ensureResolved]
  cases found : unresolved.findSome? id with
  | some text =>
      obtain ⟨entry, member, isText⟩ := List.exists_of_findSome?_eq_some found
      simp only [reduceCtorEq, false_iff]
      intro resolved
      rw [resolved entry member] at isText
      cases isText
  | none => simpa [List.findSome?_eq_none_iff] using found

theorem ensureProvisionedResolved_eq_ok {dynamic : Bool} {unresolved : List (Option String)} :
    ensureProvisionedResolved dynamic unresolved = .ok () ↔
      (dynamic = false → ∀ text ∈ unresolved, text = none) := by
  cases dynamic <;> simp [ensureProvisionedResolved, ensureResolved_eq_ok]

theorem require_eq_ok {α : Type} [FieldValue α] {dynamic : Bool} {field : Option (Field α)}
    {name : String} {presence : Presence} :
    require dynamic field name presence = .ok () ↔
      violation? dynamic field name presence = none := by
  rw [require]
  cases violation? dynamic field name presence <;> simp

/-- What is demanded does not wait for input. -/
theorem ne_pending_of_violation?_eq_none {α : Type} [FieldValue α] {dynamic : Bool}
    {field : Option (Field α)} {name : String} {presence : Presence}
    (present : violation? dynamic field name presence = none) : field ≠ some .pending := by
  rintro rfl
  simp [violation?, Field.value?] at present

end Validation

namespace Definition

open Validation

/-- What checking a definition decides. -/
def verdict (definition : Definition) (dynamic : Bool) : Except Error Unit := do
  definition.scan dynamic
  definition.kind.requirements.forM (definition.checkRequirement dynamic)
  definition.checkTarget dynamic

/-- A definition that passes every rule of its kind. -/
structure Passes (definition : Definition) (dynamic : Bool) : Prop where
  template : definition.checkTemplate = .ok ()
  scanned : ∀ name ∈ definition.kind.scanned, definition.unresolved? name = none
  texts : ∀ text ∈ definition.scannedTexts, text = none
  /-- Unless they come from a provisioner, more attributes are resolved. -/
  scannedWhenStatic : dynamic = false →
    ∀ name ∈ definition.kind.scannedWhenStatic, definition.unresolved? name = none
  /-- One of two alternatives is resolved. -/
  alternatives : definition.checkAlternatives = .ok ()
  requirements : ∀ requirement ∈ definition.kind.requirements,
    violation? dynamic (definition.text requirement.name) requirement.label
      requirement.presence = none
  target : definition.checkTarget dynamic = .ok ()

private theorem scan_eq_ok_iff {definition : Definition} {dynamic : Bool} :
    definition.scan dynamic = .ok () ↔
      definition.checkTemplate = .ok () ∧
      ((∀ name ∈ definition.kind.scanned, definition.unresolved? name = none) ∧
        ∀ text ∈ definition.scannedTexts, text = none) ∧
      (dynamic = false →
        ∀ name ∈ definition.kind.scannedWhenStatic, definition.unresolved? name = none) ∧
      definition.checkAlternatives = .ok () := by
  simp only [scan, bind_eq_ok_unit, ensureResolved_eq_ok, ensureProvisionedResolved_eq_ok,
    List.forall_mem_append, List.forall_mem_map]

/-- Checking passes if and only if every rule holds. -/
theorem verdict_eq_ok_iff {definition : Definition} {dynamic : Bool} :
    definition.verdict dynamic = .ok () ↔ definition.Passes dynamic := by
  simp only [verdict, bind_eq_ok_unit, forM_eq_ok, scan_eq_ok_iff, checkRequirement,
    require_eq_ok]
  constructor
  · rintro ⟨⟨template, ⟨scanned, texts⟩, whenStatic, alternatives⟩, requirements, target⟩
    exact ⟨template, scanned, texts, whenStatic, alternatives, requirements, target⟩
  · rintro ⟨template, scanned, texts, whenStatic, alternatives, requirements, target⟩
    exact ⟨⟨template, ⟨scanned, texts⟩, whenStatic, alternatives⟩, requirements, target⟩

/-- The attributes of provisioned hosts have a value, which names the hosts. -/
theorem Passes.hostAttributes {definition : Definition} {hosts : Option (Field HostList)}
    {filter : Option HostFilter} {attributes : Option (Field Tags)}
    (passes : definition.Passes true) (pool : definition.target = .pdc hosts filter attributes) :
    ∃ field mapping, attributes = some field ∧ field.value? = some mapping ∧
      mapping.contains hostnameAttribute = true := by
  have rules := passes.target
  simp only [checkTarget, pool, checkHosts, if_true, bind_eq_ok_unit] at rules
  have named : (attributes.bind Field.value?).any (·.contains hostnameAttribute) = true := by
    cases decided : (attributes.bind Field.value?).any (·.contains hostnameAttribute) with
    | true => rfl
    | false => simp [decided] at rules
  obtain ⟨mapping, valued, contained⟩ := (Option.any_eq_true _ _).mp named
  obtain ⟨field, rfl, value⟩ := Option.bind_eq_some_iff.mp valued
  exact ⟨field, mapping, rfl, value, contained⟩

/-- The path to provisioned hosts does not wait for input. -/
theorem Passes.hostArrayPath {definition : Definition} {hosts : Option (Field HostList)}
    {filter : Option HostFilter} {attributes : Option (Field Tags)}
    (passes : definition.Passes true) (pool : definition.target = .pdc hosts filter attributes) :
    definition.text .hostArrayPath ≠ some .pending := by
  have rules := passes.target
  simp only [checkTarget, pool, checkHosts, if_true, bind_eq_ok_unit, require_eq_ok] at rules
  exact ne_pending_of_violation?_eq_none rules.1

/-! ## Checks refuse and do not cancel -/

@[simp]
private theorem violation_ne_cancelled (violation : Violation) :
    Error.violation violation ≠ .cancelled := by
  simp [Error.violation]

private theorem bind_ne_cancelled {first : Except Error Unit} {next : Unit → Except Error Unit}
    (refuses : first ≠ .error .cancelled) (refusesNext : next () ≠ .error .cancelled) :
    (first >>= next) ≠ .error .cancelled := by
  cases first with
  | ok passed => exact refusesNext
  | error error => exact refuses

private theorem forM_ne_cancelled {α : Type} {check : α → Except Error Unit} {items : List α}
    (refuses : ∀ item ∈ items, check item ≠ .error .cancelled) :
    items.forM check ≠ .error .cancelled := by
  induction items with
  | nil =>
      intro cancelled
      cases cancelled
  | cons item rest ih =>
      obtain ⟨first, others⟩ := List.forall_mem_cons.mp refuses
      exact bind_ne_cancelled first (ih others)

private theorem ensureResolved_ne_cancelled (unresolved : List (Option String)) :
    ensureResolved unresolved ≠ .error .cancelled := by
  unfold ensureResolved
  split <;> simp

private theorem require_ne_cancelled {α : Type} [FieldValue α] (dynamic : Bool)
    (field : Option (Field α)) (name : String) (presence : Presence) :
    require dynamic field name presence ≠ .error .cancelled := by
  unfold require
  split <;> simp

private theorem requirePart_ne_cancelled {α : Type} (part : Option α) (violation : Violation) :
    requirePart part violation ≠ .error .cancelled := by
  cases part <;> simp [requirePart]

private theorem scan_ne_cancelled (definition : Definition) (dynamic : Bool) :
    definition.scan dynamic ≠ .error .cancelled := by
  have template : definition.checkTemplate ≠ .error .cancelled := by
    unfold checkTemplate
    split <;> simp
  have provisioned (unresolved : List (Option String)) :
      ensureProvisionedResolved dynamic unresolved ≠ .error .cancelled := by
    cases dynamic with
    | false => exact ensureResolved_ne_cancelled unresolved
    | true => simp [ensureProvisionedResolved]
  have alternatives : definition.checkAlternatives ≠ .error .cancelled := by
    unfold checkAlternatives requireOneResolvable
    split
    · split <;> simp
    · simp
  apply bind_ne_cancelled template
  apply bind_ne_cancelled (ensureResolved_ne_cancelled _)
  exact bind_ne_cancelled (provisioned _) alternatives

private theorem checkTarget_ne_cancelled (definition : Definition) (dynamic : Bool) :
    definition.checkTarget dynamic ≠ .error .cancelled := by
  unfold checkTarget
  split
  · unfold checkHosts
    split
    · apply bind_ne_cancelled (require_ne_cancelled _ _ _ _)
      apply bind_ne_cancelled (require_ne_cancelled _ _ _ _)
      split <;> simp
    · split <;> simp
  · exact requirePart_ne_cancelled _ _
  · exact requirePart_ne_cancelled _ _
  · split <;> simp
  · simp

/-- A definition that does not pass is refused, which is not a way of being cancelled. -/
theorem verdict_ne_cancelled (definition : Definition) (dynamic : Bool) :
    definition.verdict dynamic ≠ .error .cancelled := by
  apply bind_ne_cancelled (definition.scan_ne_cancelled dynamic)
  apply bind_ne_cancelled
  · apply forM_ne_cancelled
    intro requirement member
    exact require_ne_cancelled _ _ _ _
  · exact definition.checkTarget_ne_cancelled dynamic

/-! ## Runs of the checks -/

theorem endsAs_logNamespace (definition : Definition) :
    definition.logNamespace.EndsAs (.ok ()) := by
  unfold logNamespace
  split
  · exact Program.endsAs_tell _ _ _
  · exact Program.endsAs_pure ()

theorem endsAs_check (definition : Definition) (dynamic : Bool) :
    (definition.check dynamic).EndsAs (definition.verdict dynamic) :=
  (Program.endsAs_ofExcept _).bind fun _ =>
    definition.endsAs_logNamespace.bind fun _ => Program.endsAs_ofExcept _

/-- Checking makes no calls, and it ends with the verdict. -/
theorem endsAs_validate (definition : Definition) (environment : Environment) :
    (definition.validate environment).EndsAs (definition.verdict definition.isDynamic) := by
  rw [validate_eq]
  exact (Program.endsAs_tell _ _ _).bind fun _ => definition.endsAs_check definition.isDynamic

end Definition

end DeployTarget
