import DeployTarget.Proofs.Logging
import DeployTarget.Proofs.Lookup
import DeployTarget.Proofs.PathSpelling
import Mathlib.Data.List.Forall2

/-!
# Pools whose paths are respelled

A provisioned pool is respelled by writing the path of its hosts, or that of an attribute, the
other way.  The definition passes the same checks, asks the same and ends in the same way: only
the log, which shows the path of the hosts as it is written, tells the spellings apart.
-/

namespace DeployTarget

namespace HostPool

/-- Says that two mappings have the same attributes, in the same order and under the same paths,
each in a spelling of its own. -/
def SameMapping (first second : Tags) : Prop :=
  List.Forall₂ (fun entry other => entry.1 = other.1 ∧ SamePath root entry.2 other.2)
    first.entries second.entries

variable {first second : Tags}

theorem SameMapping.keys_eq (same : SameMapping first second) : first.keys = second.keys := by
  rw [OrderedMap.keys, OrderedMap.keys, ← List.forall₂_eq_eq_eq, List.forall₂_map_left_iff,
    List.forall₂_map_right_iff]
  exact same.imp fun _ _ both => both.1

theorem SameMapping.isEmpty_eq (same : SameMapping first second) :
    first.isEmpty = second.isEmpty := by
  have counted (map : Tags) : map.isEmpty = map.keys.isEmpty := by
    simp [OrderedMap.isEmpty, OrderedMap.keys]
  rw [counted, counted, same.keys_eq]

theorem SameMapping.contains_eq (same : SameMapping first second) (name : String) :
    first.contains name = second.contains name := by
  rw [Bool.eq_iff_iff, OrderedMap.contains_iff_mem_keys, OrderedMap.contains_iff_mem_keys,
    same.keys_eq]

theorem SameMapping.attributes_eq (same : SameMapping first second) (object : Json) :
    attributes first object = attributes second object := by
  refine congrArg OrderedMap.ofList ?_
  rw [SameMapping] at same
  generalize first.entries = entries, second.entries = others at same ⊢
  induction same with
  | nil => rfl
  | cons both _ ih =>
      rw [List.filterMap_cons, List.filterMap_cons, ih, both.1, attribute?_congr both.2]

/-- One mapping passes the checks if and only if the other does. -/
theorem SameMapping.require_eq (same : SameMapping first second) (dynamic : Bool)
    (name : String) :
    Validation.require dynamic (some (.literal first)) name .value =
      Validation.require dynamic (some (.literal second)) name .value := by
  simp [Validation.require, Validation.violation?, Field.value?, FieldValue.isBlank,
    FieldValue.isInputMarker, same.isEmpty_eq]

theorem SameMapping.host?_eq (same : SameMapping first second) (object : Json) :
    host? first object = host? second object := by
  rw [host?, same.attributes_eq, host?]

/-- The same objects are kept, with the same attributes. -/
theorem SameMapping.keepHosts_eq (same : SameMapping first second) (index : Nat)
    (objects : List Json) :
    Definition.keepHosts first index objects = Definition.keepHosts second index objects := by
  induction objects generalizing index with
  | nil => rfl
  | cons object rest ih => rw [Definition.keepHosts, same.host?_eq, ih, Definition.keepHosts]

end HostPool

namespace Definition

open HostPool

/-- Says that a definition has the path of its hosts in a field, as a spelling is read. -/
def SpellsHosts (definition : Definition) (path : String) : Prop :=
  ∃ written field, Spells Outputs.root path written ∧
    Field.ofJson (.string written) = .ok field ∧
    definition.text .hostArrayPath = some field

/-- Says that two definitions are the same provisioned pool, but for the spelling of its paths. -/
structure Respelled (first second : Definition) : Prop where
  details : first.details = second.details
  texts (name : Attribute) (other : name ≠ .hostArrayPath) : first.text name = second.text name
  hosts : ∃ path, IsPath path ∧ first.SpellsHosts path ∧ second.SpellsHosts path
  target : ∃ hosts filter mapping other,
    first.target = .pdc hosts filter (some (.literal mapping)) ∧
    second.target = .pdc hosts filter (some (.literal other)) ∧ SameMapping mapping other

variable {definition first second : Definition} {path : String}

/-! ## The path of the hosts -/

theorem SpellsHosts.eq_or_eq (spells : definition.SpellsHosts path) (proper : IsPath path) :
    definition.text .hostArrayPath = some (.literal path) ∨
      definition.text .hostArrayPath = some (.expression (reference Outputs.root path)) := by
  obtain ⟨written, field, spelled, read, held⟩ := spells
  rw [held, Option.some.injEq, Option.some.injEq]
  exact Field.ofJson_spelling proper spelled read

/-- A spelling passes for the path of the hosts. -/
theorem SpellsHosts.require_eq (spells : definition.SpellsHosts path) (proper : IsPath path)
    (dynamic : Bool) (name : String) :
    Validation.require dynamic (definition.text .hostArrayPath) name .valueOrExpression =
      .ok () := by
  rcases spells.eq_or_eq proper with held | held
  · simp [held, Validation.require, Validation.violation?, Field.value?, FieldValue.isInputMarker,
      FieldValue.isBlank, Field.isRuntimeInputText_bare proper, proper.nonempty]
  · simp [held, Validation.require, Validation.violation?, Field.value?,
      Field.isRuntimeInputText_reference]

/-- A spelling is read as it is written, and stands for the reference. -/
theorem SpellsHosts.exists_plain_eq (spells : definition.SpellsHosts path)
    (proper : IsPath path) (name : String) :
    ∃ written, Field.plain (definition.text .hostArrayPath) name = pure (some written) ∧
      arrayExpression written = reference Outputs.root path := by
  rcases spells.eq_or_eq proper with held | held
  · exact ⟨path, by rw [held]; rfl, arrayExpression_spelling proper .bare⟩
  · exact ⟨_, by rw [held]; rfl, arrayExpression_spelling proper .reference⟩

/-- With a mapping that is written, the hosts are asked for behind two checkpoints, and what the
log says of their path is all that depends on how it is written. -/
theorem unlogged_readHosts {written : String} (mapping : Tags)
    (read : Field.plain (definition.text .hostArrayPath) Attribute.hostArrayPath.name =
      pure (some written)) :
    (definition.readHosts (some (.literal mapping))).unlogged =
      .checkpoint (.checkpoint (Program.hostObjects (arrayExpression written) >>= fun objects =>
        (keepHosts mapping 0 objects).unlogged)) := by
  rw [readHosts, read]
  change Program.checkpoint (.checkpoint (Program.unlogged
    (Program.hostObjects (arrayExpression written) >>= _))) = _
  rw [Program.unlogged_bind, Program.silent_hostObjects]
  rfl

/-! ## Checks -/

namespace Respelled

theorem isDynamic_eq (respelled : Respelled first second) :
    first.isDynamic = second.isDynamic := by
  obtain ⟨hosts, filter, mapping, other, target, targetOther, -⟩ := respelled.target
  simp [isDynamic, kind, target, targetOther, Target.kind, respelled.details]

theorem scan_eq (respelled : Respelled first second) (dynamic : Bool) :
    first.scan dynamic = second.scan dynamic := by
  obtain ⟨hosts, filter, mapping, other, target, targetOther, -⟩ := respelled.target
  simp [scan, checkTemplate, scannedTexts, checkAlternatives, kind, target, targetOther,
    Target.kind, Kind.scanned, Kind.scannedWhenStatic, unresolved?, respelled.texts]

theorem checkTarget_eq (respelled : Respelled first second) (dynamic : Bool) :
    first.checkTarget dynamic = second.checkTarget dynamic := by
  obtain ⟨path, proper, spells, spellsOther⟩ := respelled.hosts
  obtain ⟨hosts, filter, mapping, other, target, targetOther, same⟩ := respelled.target
  simp only [checkTarget, target, targetOther, checkHosts]
  cases dynamic with
  | true =>
      rw [spells.require_eq proper, spellsOther.require_eq proper, same.require_eq]
      simp only [Option.bind_some, Field.value?, Option.any_some, same.contains_eq, if_true]
      rfl
  | false => simp [respelled.texts]

theorem check_eq (respelled : Respelled first second) (dynamic : Bool) :
    first.check dynamic = second.check dynamic := by
  obtain ⟨hosts, filter, mapping, other, target, targetOther, -⟩ := respelled.target
  have demands : first.kind.requirements.forM (first.checkRequirement dynamic) =
      second.kind.requirements.forM (second.checkRequirement dynamic) := by
    simp [kind, target, targetOther, Target.kind, Kind.requirements, Kind.expect,
      checkRequirement, respelled.texts]
  have namespaces : first.logNamespace = second.logNamespace := by
    simp [logNamespace, loggedNamespace?, kind, target, targetOther, Target.kind,
      Kind.isKubernetes]
  rw [check, respelled.scan_eq, namespaces, demands, respelled.checkTarget_eq, check]

theorem validate_eq (respelled : Respelled first second) (environment : Environment) :
    first.validate environment = second.validate environment := by
  rw [Definition.validate_eq, respelled.details, respelled.isDynamic_eq, respelled.check_eq,
    Definition.validate_eq]

/-! ## Reads -/

variable (surroundings : Surroundings)

/-- The hosts are read in the same way, but for what the log says of their path. -/
theorem readHosts_eq (respelled : Respelled first second) {mapping other : Tags}
    (same : SameMapping mapping other) :
    (first.readHosts (some (.literal mapping))).unlogged =
      (second.readHosts (some (.literal other))).unlogged := by
  obtain ⟨path, proper, spells, spellsOther⟩ := respelled.hosts
  obtain ⟨written, read, asks⟩ := spells.exists_plain_eq proper Attribute.hostArrayPath.name
  obtain ⟨writtenOther, readOther, asksOther⟩ :=
    spellsOther.exists_plain_eq proper Attribute.hostArrayPath.name
  simp only [unlogged_readHosts _ read, unlogged_readHosts _ readOther, asks, asksOther,
    same.keepHosts_eq]

theorem outcome_eq (respelled : Respelled first second) (dynamic : Bool) :
    first.outcome surroundings dynamic = second.outcome surroundings dynamic := by
  obtain ⟨hosts, filter, mapping, other, target, targetOther, -⟩ := respelled.target
  have keyText : first.keyText? = second.keyText? := by
    funext texts part
    cases part <;> simp [keyText?, template?, target, targetOther, respelled.details]
  funext texts extra
  simp [outcome, common, key, reported, keyText, kind, target, targetOther, Target.kind,
    respelled.details]

theorem resolveFields_eq (respelled : Respelled first second) (dynamic : Bool) :
    (first.resolveFields surroundings dynamic).unlogged =
      (second.resolveFields surroundings dynamic).unlogged := by
  obtain ⟨hosts, filter, mapping, other, target, targetOther, same⟩ := respelled.target
  have reads : Reading.readAll surroundings first dynamic first.kind.readings =
      Reading.readAll surroundings second dynamic second.kind.readings := by
    simp [kind, target, targetOther, Target.kind, Kind.readings, Reading.readAll, Reading.read,
      respelled.texts]
  simp only [resolveFields, reads, Program.unlogged_bind, readTarget, target, targetOther,
    respelled.outcome_eq]
  cases dynamic with
  | true => simp [Program.unlogged_bind, respelled.readHosts_eq same]
  | false => rfl

theorem resolve_eq (respelled : Respelled first second) :
    (first.resolve surroundings).unlogged = (second.resolve surroundings).unlogged := by
  have connects : first.addConnector surroundings = second.addConnector surroundings := by
    funext outcome
    simp [addConnector, connectorRef, respelled.texts]
  simp only [Definition.resolve_eq, Program.unlogged_bind, Program.unlogged_tell,
    respelled.validate_eq, respelled.isDynamic_eq, respelled.resolveFields_eq, connects]

end Respelled

/-- Pools that differ in the spelling of their paths ask the same and resolve to the same, or
fail in the same way, whatever the evaluator answers. -/
theorem resolve_respelled (first second : Definition) (respelled : Respelled first second)
    (surroundings : Surroundings) (world : World) (cancelAfter : Option Nat) :
    ((first.resolve surroundings).run world cancelAfter).calls =
        ((second.resolve surroundings).run world cancelAfter).calls ∧
      ((first.resolve surroundings).run world cancelAfter).result =
        ((second.resolve surroundings).run world cancelAfter).result :=
  Program.run_congr (respelled.resolve_eq surroundings)

/-- A provisioned pool with the path of its hosts and a mapping of their attributes. -/
def poolAt (array : Field String) (mapping : List (String × String)) : Definition where
  details := ⟨"pool", "Pool", .empty, true, none⟩
  text
    | .credentialsRef => some (.literal "credentials")
    | .hostArrayPath => some array
    | _ => none
  target := .pdc none none (some (.literal (.ofList mapping)))

/-- Paths with dots in front, positions and the name of the root are the same in both
spellings. -/
theorem resolve_respelled_poolAt :
    let bare := poolAt (.literal "..data[0]")
      [(hostnameAttribute, "host.name"), ("address", ".ip[1]")]
    let referring := poolAt (.expression "<+provisioner...data[0]>")
      [(hostnameAttribute, "<+host.host.name>"), ("address", "<+host..ip[1]>")]
    let surroundings : Surroundings :=
      ⟨.unnamed, ⟨"environment", none, .production⟩, none, .empty⟩
    let object : Json := .object
      [("host", .object [("name", .string "web")]), ("ip", .array [.null, .string "10.0.0.1"])]
    let outputs : Outputs := ⟨.object [("data", .array [.array [object]])]⟩
    let world : World := ⟨outputs.lookup, fun _ => .ok none⟩
    ∃ outcome attributes,
      ((bare.resolve surroundings).run world none).result = .ok outcome ∧
      ((referring.resolve surroundings).run world none).result = .ok outcome ∧
      outcome.extra = .provisionedPool ["web"] [attributes] (HostFilter.selection none) ∧
      attributes.entries = [(hostnameAttribute, "web"), ("address", "10.0.0.1")] := by
  intro bare referring surroundings object outputs world
  have proper (path : String) (nonempty : path ≠ "")
      (trimmed : Text.trimmed path.toList = path.toList)
      (plain : '<' ∉ path.toList ∧ '>' ∉ path.toList) : IsPath path :=
    ⟨nonempty, trimmed, plain.1, plain.2⟩
  have respelled : Respelled bare referring := by
    refine ⟨rfl, fun name other => ?_, ⟨"..data[0]", proper _ (by decide) (by decide) (by decide),
      ⟨_, _, .bare, rfl, rfl⟩, ⟨_, _, .reference, rfl, rfl⟩⟩, ⟨none, none, _, _, rfl, rfl, ?_⟩⟩
    · cases name <;> first | rfl | exact absurd rfl other
    · refine .cons ⟨rfl, "host.name", proper _ (by decide) (by decide) (by decide), .bare,
        .reference⟩ (.cons ⟨rfl, ".ip[1]", proper _ (by decide) (by decide) (by decide), .bare,
        .reference⟩ .nil)
  refine ⟨_, _, rfl, ?_, rfl, rfl⟩
  rw [← (resolve_respelled bare referring respelled surroundings world none).2]
  rfl

end Definition

end DeployTarget
