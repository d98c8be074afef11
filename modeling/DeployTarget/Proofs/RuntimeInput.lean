import DeployTarget.Proofs.StaticResolution
import DeployTarget.Proofs.Texts

/-!
# Fields that wait for runtime input

A field that waits for runtime input has no value to deploy with.  Most of what an outcome
reports is demanded by a check or comes from a read that fails where the field waits.  The
flag of a cluster, the hosts of a pool and the value of its host filter are taken without
such a read: where one of them waits, a definition resolves as if it were absent.
-/

namespace DeployTarget

/-- Whether a slot is demanded by a check, or taken by a read that fails where it waits. -/
def Slot.isGuarded : Slot → Bool
  | .useClusterAdminCredentials | .hosts | .hostFilter => false
  | _ => true

namespace Kind

/-- The slots of a kind of which no outcome reports anything.  A provisioned pool has its
hosts from the provisioner, and other pools do without the way to provisioned hosts. -/
def unreported : Kind → Bool → List Slot
  | .pdc, true => [.hosts]
  | .pdc, false => [.text .hostArrayPath, .hostAttributes]
  | .elastigroup, _ => [.configuration]
  | .customDeployment, _ => [.text .connectorRef]
  | _, _ => []

/-- A text that is reported is demanded, unless it is the connector, the way to reach hosts
or the place of provisioned hosts. -/
theorem demanded_of_reported (kind : Kind) : ∀ dynamic, ∀ name ∈ kind.attributes,
    .text name ∉ kind.unreported dynamic →
      name ∈ kind.requirements.map (·.name) ∨
      name = .connectorRef ∧ kind ≠ .customDeployment ∨
      name = .hostConnectionType ∧ kind = .sshWinRmAzure ∨
      name = .hostArrayPath ∧ kind = .pdc ∧ dynamic = true := by
  cases kind <;> decide

theorem mem_attributes {kind : Kind} {name : Attribute} (listed : .text name ∈ kind.slots) :
    name ∈ kind.attributes :=
  List.mem_filterMap.mpr ⟨_, listed, rfl⟩

end Kind

namespace Field

variable {α : Type} {field : Option (Field α)} {name : String}

theorem waits_eq_false_of_written (silent : (writtenInquiry field name).failure = none) :
    waits field = false := by
  rw [failure_writtenInquiry] at silent
  cases waiting : waits field with
  | false => rfl
  | true => simp [waiting] at silent

theorem waits_eq_false_of_inquiry [FieldValue α] {dynamic : Bool} {mode : Mode}
    {lookup : String → Except Error (Option Json)}
    (silent : (inquiry dynamic lookup mode field name).failure = none) :
    waits field = false := by
  cases dynamic with
  | false => exact waits_eq_false_of_written silent
  | true =>
      rcases field with - | (_ | _ | _ | _)
      all_goals first | rfl | cases silent

theorem waits_filter_isPending (field : Option (Field α)) :
    waits (field.filter (!·.isPending)) = false := by
  rcases field with - | (_ | _ | _ | _) <;> rfl

end Field

def HostFilter.waits : HostFilter → Bool
  | .all => false
  | .names value => value.isPending
  | .attributes value => value.isPending

/-- A host filter whose value, where it waits, is empty. -/
def HostFilter.defaulted : HostFilter → HostFilter
  | .names .pending => .names (.literal [])
  | .attributes .pending => .attributes (.literal .empty)
  | other => other

theorem HostFilter.waits_defaulted (filter : HostFilter) : filter.defaulted.waits = false := by
  rcases filter with - | (_ | _ | _ | _) | (_ | _ | _ | _) <;> rfl

def Configuration.waits : Configuration → Bool
  | .inline content => content.isPending
  | .files _ => false

namespace Definition

/-- Whether what stands in a slot of a definition waits for runtime input. -/
def awaits (definition : Definition) (slot : Slot) : Bool :=
  match slot, definition.target with
  | .text name, _ => Field.waits (definition.text name)
  | .useClusterAdminCredentials, .kubernetesAzure flag => Field.waits flag
  | .hosts, .pdc hosts _ _ => Field.waits hosts
  | .hostFilter, .pdc _ filter _ => filter.any HostFilter.waits
  | .hostAttributes, .pdc _ _ attributes => Field.waits attributes
  | .awsInstanceFilter, .sshWinRmAws filter => Field.waits (filter.bind (·.tags))
  | .hostTags, .sshWinRmAzure hostTags => Field.waits hostTags
  | .configuration, .elastigroup configuration => configuration.any Configuration.waits
  | .settings, .customDeployment _ settings => settings.any fun entry => Field.waits entry.value
  | _, _ => false

/-- The slots that the outcome of a definition reports something of. -/
def reportedSlots (definition : Definition) : List Slot :=
  definition.kind.slots.filter (· ∉ definition.kind.unreported definition.isDynamic)

/-- The definition without what waits in its unguarded slots. -/
def defaulted (definition : Definition) : Definition :=
  { definition with
    target := match definition.target with
      | .kubernetesAzure flag => .kubernetesAzure (flag.filter (!·.isPending))
      | .pdc hosts filter attributes =>
          .pdc (hosts.filter (!·.isPending)) (filter.map HostFilter.defaulted) attributes
      | target => target }

variable {definition : Definition} {surroundings : Surroundings} {world : World}

/-- A demand that has been met, or a read that has not failed, leaves no text to wait. -/
private theorem waits_text_eq_false (passes : definition.Passes definition.isDynamic)
    {service : Option Service} {lookup : String → Except Error (Option Json)}
    (silent : ∀ inquiry ∈ definition.inquiries service definition.isDynamic lookup,
      inquiry.failure = none) {name : Attribute} (listed : name ∈ definition.kind.attributes)
    (reported : .text name ∉ definition.kind.unreported definition.isDynamic) :
    Field.waits (definition.text name) = false := by
  have read (member : Field.writtenInquiry (definition.text name) name.name ∈
      definition.inquiries service definition.isDynamic lookup) :
      Field.waits (definition.text name) = false :=
    Field.waits_eq_false_of_written (silent _ member)
  rcases definition.kind.demanded_of_reported _ name listed reported with
    demanded | ⟨rfl, other⟩ | ⟨rfl, cloud⟩ | ⟨rfl, pool, dynamic⟩
  · exact passes.not_waits demanded
  -- The others are read as they are written, each at its own place in the sequence.
  · refine read (List.mem_append_left _ (List.mem_append_left _ ?_))
    exact List.mem_map_of_mem (definition.kind.connectorRef_mem_writtenFirst.mpr other)
  · refine read (List.mem_append_right _ ?_)
    cases target : definition.target <;> simp only [kind, target, Target.kind] at cloud <;>
      try cases cloud
    simp only [targetInquiries, target]
    exact List.mem_cons_of_mem _ List.mem_cons_self
  · refine read (List.mem_append_right _ ?_)
    cases target : definition.target <;> simp only [kind, target, Target.kind] at pool <;>
      try cases pool
    simp only [targetInquiries, target, dynamic]
    exact List.mem_cons_self

/-- Behind the checks and the reads, no guarded slot that is reported waits. -/
private theorem awaits_eq_false (passes : definition.Passes definition.isDynamic)
    {service : Option Service} {lookup : String → Except Error (Option Json)}
    (silent : ∀ inquiry ∈ definition.inquiries service definition.isDynamic lookup,
      inquiry.failure = none) {slot : Slot} (reported : slot ∈ definition.reportedSlots)
    (guarded : slot.isGuarded = true) : definition.awaits slot = false := by
  obtain ⟨listed, kept⟩ := List.mem_filter.mp reported
  have kept := of_decide_eq_true kept
  have silentTarget := fun inquiry member => silent inquiry (List.mem_append_right _ member)
  cases slot with
  | text name => exact waits_text_eq_false passes silent (Kind.mem_attributes listed) kept
  | useClusterAdminCredentials => cases guarded
  | hosts => cases guarded
  | hostFilter => cases guarded
  | hostAttributes =>
      cases target : definition.target <;> simp only [awaits, target]
      next hosts filter attributes =>
      -- Only a provisioned pool looks at them, and its checks demand a value.
      cases dynamic : definition.isDynamic with
      | false => simp [kind, target, Target.kind, Kind.unreported, dynamic] at kept
      | true =>
          rw [dynamic] at passes
          obtain ⟨field, mapping, rfl, valued, -⟩ := passes.hostAttributes target
          cases field with
          | pending => cases valued
          | literal | expression | resolved => rfl
  | awsInstanceFilter =>
      cases target : definition.target <;> simp only [awaits, target]
      next filter =>
      simp only [targetInquiries, target] at silentTarget
      exact Field.waits_eq_false_of_inquiry (silentTarget _ List.mem_cons_self)
  | hostTags =>
      cases target : definition.target <;> simp only [awaits, target]
      next hostTags =>
      simp only [targetInquiries, target] at silentTarget
      exact Field.waits_eq_false_of_inquiry (silentTarget _ List.mem_cons_self)
  | configuration =>
      cases target : definition.target <;> simp only [awaits, target]
      simp [kind, target, Target.kind, Kind.unreported] at kept
  | customDeploymentRef => rfl
  | settings =>
      cases target : definition.target <;> simp only [awaits, target]
      next reference settings =>
      simp only [targetInquiries, target, List.forall_mem_map] at silentTarget
      rw [List.any_eq_false]
      intro entry member
      rw [Field.waits_eq_false_of_written (silentTarget entry member)]
      exact Bool.false_ne_true

private theorem resolve_defaulted (definition : Definition) (surroundings : Surroundings) :
    definition.defaulted.resolve surroundings = definition.resolve surroundings := by
  obtain ⟨details, text, target⟩ := definition
  cases target with
  | kubernetesAzure flag => rcases flag with - | (_ | _ | _ | _) <;> rfl
  | pdc hosts filter attributes =>
      rcases hosts with - | (_ | _ | _ | _) <;>
        rcases filter with - | (_ | (_ | _ | _ | _) | (_ | _ | _ | _)) <;> rfl
  | _ => rfl

private theorem awaits_defaulted (definition : Definition) (slot : Slot) :
    definition.defaulted.awaits slot = (definition.awaits slot && slot.isGuarded) := by
  obtain ⟨details, text, target⟩ := definition
  cases target with
  | kubernetesAzure flag =>
      cases slot <;> simp [defaulted, awaits, Slot.isGuarded, Field.waits_filter_isPending]
  | pdc hosts filter attributes =>
      have emptied : (filter.map HostFilter.defaulted).any HostFilter.waits = false := by
        cases filter with
        | none => rfl
        | some filter => exact filter.waits_defaulted
      cases slot <;>
        simp [defaulted, awaits, Slot.isGuarded, Field.waits_filter_isPending, emptied]
  | _ => cases slot <;> simp [defaulted, awaits, Slot.isGuarded]

/-- A definition does not resolve while a guarded slot that it reports waits.  What waits in
its other slots is taken for absent: the definition without it resolves in the same way. -/
theorem resolve_of_awaits (definition : Definition) (surroundings : Surroundings)
    (world : World) (cancelAfter : Option Nat) :
    (∀ slot ∈ definition.reportedSlots, slot.isGuarded = true → definition.awaits slot = true →
      ∃ error, ((definition.resolve surroundings).run world cancelAfter).result =
        .error error) ∧
    definition.defaulted.resolve surroundings = definition.resolve surroundings ∧
    ∀ slot, definition.defaulted.awaits slot = (definition.awaits slot && slot.isGuarded) := by
  refine ⟨?_, resolve_defaulted _ _, definition.awaits_defaulted⟩
  intro slot reported guarded waiting
  cases ended : ((definition.resolve surroundings).run world cancelAfter).result with
  | error error => exact ⟨error, rfl⟩
  | ok outcome =>
      obtain ⟨passes, base, read, -⟩ :=
        resolve_eq_ok_iff.mp (Program.result_run_none_of_ok ended)
      have made : Program.Makes world _ _ := makes_resolveFields passes surroundings
      have silent := made.failure.symm.trans (Run.failure?_eq_none_iff.mpr ⟨base, read⟩)
      rw [Inquiry.failure?, List.findSome?_eq_none_iff] at silent
      rw [awaits_eq_false passes silent reported guarded] at waiting
      cases waiting

/-- A cluster that waits for one of its fields: for its connector or for its flag. -/
def waitingCluster (slot : Slot) : Definition where
  details := ⟨"cluster", "Cluster", .empty, false, none⟩
  text
    | .connectorRef =>
        some (if slot = .text .connectorRef then .pending else .literal "connector")
    | .kubeNamespace | .cluster | .releaseName | .subscriptionId | .resourceGroup =>
        some (.literal "text")
    | _ => none
  target := .kubernetesAzure
    (some (if slot = .useClusterAdminCredentials then .pending else .literal true))

/-- The cluster that waits for its connector does not resolve. -/
theorem resolve_of_awaits_waitingCluster :
    let definition := waitingCluster (.text .connectorRef)
    let surroundings : Surroundings :=
      ⟨.unnamed, ⟨"environment", none, .production⟩, none, .empty⟩
    let world : World := ⟨fun _ => .ok none, fun _ => .ok none⟩
    definition.awaits (.text .connectorRef) = true ∧
      ∃ error, ((definition.resolve surroundings).run world none).result = .error error := by
  intro definition surroundings world
  obtain ⟨fails, -, -⟩ := resolve_of_awaits definition surroundings world none
  exact ⟨rfl, fails (.text .connectorRef) (by decide) rfl rfl⟩

/-- A pool that waits for its hosts, or for the names by which they are filtered. -/
def waitingPool (slot : Slot) : Definition where
  details := ⟨"pool", "Pool", .empty, false, none⟩
  text
    | .credentialsRef => some (.literal "credentials")
    | .connectorRef => some (.literal "connector")
    | _ => none
  target := .pdc
    (some (if slot = .hosts then .pending else .literal (.listed ["host"])))
    (some (.names (if slot = .hostFilter then .pending else .literal ["host"]))) none

/-- While a flag, hosts or a filter wait, a definition resolves without them. -/
theorem resolves_while_waiting :
    let surroundings : Surroundings :=
      ⟨.unnamed, ⟨"environment", none, .production⟩, none, .empty⟩
    let world : World := ⟨fun _ => .ok none, fun _ => .ok none⟩
    let accepts (definition : Definition) (slot : Slot) (extra : Outcome.Extra) : Prop :=
      slot ∈ definition.reportedSlots ∧ definition.awaits slot = true ∧
        ∃ outcome, ((definition.resolve surroundings).run world none).result = .ok outcome ∧
          outcome.extra = extra
    accepts (waitingCluster .useClusterAdminCredentials) .useClusterAdminCredentials
        (.clusterAdmin false) ∧
      accepts (waitingPool .hosts) .hosts (.pool [] ⟨.names, ["host"], .empty⟩) ∧
      accepts (waitingPool .hostFilter) .hostFilter
        (.pool ["host"] ⟨.names, [], .empty⟩) := by
  intro surroundings world accepts
  refine ⟨⟨?_, rfl, _, rfl, rfl⟩, ⟨?_, rfl, _, rfl, rfl⟩, ⟨?_, rfl, _, rfl, rfl⟩⟩
  · decide
  · decide
  · decide

end Definition

end DeployTarget
