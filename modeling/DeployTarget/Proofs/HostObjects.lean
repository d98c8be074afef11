import DeployTarget.Proofs.Calls
import DeployTarget.Proofs.Canonical
import DeployTarget.Proofs.Logging
import DeployTarget.Proofs.Lookup

/-!
# Hosts and host objects

The hosts of a provisioned pool are the host objects that have a name, in order.  Each of them
carries the attributes that its object shows, in the order of the mapping and the name among them.
Every object without a name is left out, and the log says so once, with the index of the object.
-/

namespace DeployTarget

namespace HostPool

variable {mapping : Tags} {object : Json}

/-! ## What an object shows -/

/-- Says that a path leads to a value in a host object, which is written as a text.  Null is no
value. -/
def Shows (object : Json) (path text : String) : Prop :=
  ∃ value, object.find? (String.ofList (attributePath path)) = some value ∧
    value.isNull = false ∧ value.rendered = text

/-- Says what names a host object: the text, not empty, to which the path of the host name
leads. -/
def Names (mapping : Tags) (object : Json) (name : String) : Prop :=
  ∃ path, mapping.get? hostnameAttribute = some path ∧ Shows object path name ∧ name ≠ ""

/-- Says that attributes are those of a mapping that a host object shows, in the order of the
mapping. -/
structure Describes (mapping : Tags) (object : Json) (attributes : Tags) : Prop where
  order : attributes.keys.Sublist mapping.keys
  get?_eq_some_iff (name text : String) : attributes.get? name = some text ↔
    ∃ path, mapping.get? name = some path ∧ Shows object path text

theorem attribute?_eq_some_iff {path text : String} :
    attribute? object path = some text ↔ Shows object path text := by
  simp only [attribute?, Option.bind_eq_bind, Option.bind_eq_some_iff, Shows]
  refine exists_congr fun value => and_congr_right fun _ => ?_
  cases value.isNull <;> simp

/-- What is read for an entry of a mapping keeps the name of the attribute. -/
private def shown? (object : Json) (entry : String × String) : Option (String × String) :=
  (attribute? object entry.2).map fun text => (entry.1, text)

private theorem keys_filterMap_shown? (object : Json) (entries : List (String × String)) :
    ((entries.filterMap (shown? object)).map Prod.fst).Sublist (entries.map Prod.fst) := by
  induction entries with
  | nil => exact .slnil
  | cons entry rest ih =>
      rw [List.filterMap_cons, List.map_cons, shown?]
      cases attribute? object entry.2 with
      | none => exact ih.cons _
      | some text => exact ih.cons_cons _

private theorem entries_attributes (mapping : Tags) (object : Json) :
    (attributes mapping object).entries = mapping.entries.filterMap (shown? object) := by
  have read : attributes mapping object =
      OrderedMap.ofList (mapping.entries.filterMap (shown? object)) := by
    refine congrArg (fun show? => OrderedMap.ofList (mapping.entries.filterMap show?))
      (funext fun entry => ?_)
    simp [shown?, Option.map_eq_bind]
  rw [read]
  exact OrderedMap.entries_ofList ((keys_filterMap_shown? object _).nodup mapping.distinct)

/-- What is read from an object describes it. -/
theorem describes_attributes (mapping : Tags) (object : Json) :
    Describes mapping object (attributes mapping object) where
  order := by
    rw [OrderedMap.keys, entries_attributes]
    exact keys_filterMap_shown? object _
  get?_eq_some_iff name text := by
    simp only [OrderedMap.get?_eq_some_iff, entries_attributes, List.mem_filterMap, shown?,
      Option.map_eq_some_iff, attribute?_eq_some_iff, Prod.mk.injEq]
    constructor
    · rintro ⟨⟨name, path⟩, member, text, shows, rfl, rfl⟩
      exact ⟨path, member, shows⟩
    · rintro ⟨path, member, shows⟩
      exact ⟨(name, path), member, text, shows, rfl, rfl⟩

theorem host?_eq_some_iff {host : Host} :
    host? mapping object = some host ↔
      Names mapping object host.name ∧ host.attributes = attributes mapping object := by
  have described := (describes_attributes mapping object).get?_eq_some_iff hostnameAttribute
  obtain ⟨name, tags⟩ := host
  simp only [host?, Option.bind_eq_bind, Option.bind_eq_some_iff, described, Names]
  constructor
  · rintro ⟨text, ⟨path, mapped, shows⟩, filled⟩
    split at filled
    · cases filled
    · cases filled
      exact ⟨⟨path, mapped, shows, ‹_›⟩, rfl⟩
  · rintro ⟨⟨path, mapped, shows, filled⟩, rfl⟩
    exact ⟨name, ⟨path, mapped, shows⟩, if_neg filled⟩

/-- Says that a host object has a name. -/
def IsNamed (mapping : Tags) (object : Json) : Prop :=
  ∃ name, Names mapping object name

theorem isSome_host?_iff : (host? mapping object).isSome ↔ IsNamed mapping object := by
  simp only [Option.isSome_iff_exists, host?_eq_some_iff, IsNamed]
  constructor
  · rintro ⟨host, names, -⟩
    exact ⟨host.name, names⟩
  · rintro ⟨name, names⟩
    exact ⟨⟨name, attributes mapping object⟩, names, rfl⟩

instance (mapping : Tags) : DecidablePred (IsNamed mapping) := fun _ =>
  decidable_of_iff _ isSome_host?_iff

/-! ## What is kept of a list of objects -/

/-- The entry in the log for a host object that is left out. -/
def skipped (index : Nat) : Event :=
  ⟨.warn, "provisioned host has no " ++ hostnameAttribute ++ ", skipping",
    [("index", (Number.int index).text)]⟩

/-- The entries in the log for the objects without a name, whose numbers begin with an index. -/
def skips (mapping : Tags) (index : Nat) (objects : List Json) : List Event :=
  ((objects.zipIdx index).filter fun entry => ¬ IsNamed mapping entry.1).map (skipped ·.2)

theorem filter_skips (mapping : Tags) (index : Nat) (objects : List Json) :
    (skips mapping index objects).filter (·.level = .warn) = skips mapping index objects := by
  refine List.filter_eq_self.mpr fun event member => ?_
  obtain ⟨entry, -, rfl⟩ := List.mem_map.mp member
  rfl

/-- Says that hosts, attributes and warnings account for a list of host objects: the objects
with a name are the hosts, in order and with their attributes, and there is one warning for
each of the others. -/
structure Accounts (mapping : Tags) (objects : List Json) (names : List String)
    (described : List Tags) (warnings : List Event) : Prop where
  named : List.Forall₂ (Names mapping) (objects.filter (IsNamed mapping)) names
  describes : List.Forall₂ (Describes mapping) (objects.filter (IsNamed mapping)) described
  paired : List.Forall₂ (fun name tags => tags.get? hostnameAttribute = some name) names
    described
  warned : warnings = skips mapping 0 objects

/-- The hosts that are kept are read from the objects with a name, one from each. -/
theorem forall₂_host? (mapping : Tags) (objects : List Json) :
    List.Forall₂ (fun object host => host? mapping object = some host)
      (objects.filter (IsNamed mapping)) (objects.filterMap (host? mapping)) := by
  induction objects with
  | nil => exact .nil
  | cons object rest ih =>
      have named : IsNamed mapping object ↔ _ := isSome_host?_iff.symm
      cases read : host? mapping object with
      | none =>
          rw [List.filterMap_cons_none read, List.filter_cons_of_neg (by simp [named, read])]
          exact ih
      | some host =>
          rw [List.filterMap_cons_some read, List.filter_cons_of_pos (by simp [named, read])]
          exact ih.cons read

theorem accounts_filterMap_host? (mapping : Tags) (objects : List Json) :
    Accounts mapping objects ((objects.filterMap (host? mapping)).map (·.name))
      ((objects.filterMap (host? mapping)).map (·.attributes)) (skips mapping 0 objects) where
  named := by
    rw [List.forall₂_map_right_iff]
    exact (forall₂_host? mapping objects).imp fun object host read =>
      (host?_eq_some_iff.mp read).1
  describes := by
    rw [List.forall₂_map_right_iff]
    refine (forall₂_host? mapping objects).imp fun object host read => ?_
    rw [(host?_eq_some_iff.mp read).2]
    exact describes_attributes mapping object
  paired := by
    rw [List.forall₂_map_left_iff, List.forall₂_map_right_iff, List.forall₂_same]
    intro host member
    obtain ⟨object, -, read⟩ := List.mem_filterMap.mp member
    obtain ⟨⟨path, mapped, shows, -⟩, same⟩ := host?_eq_some_iff.mp read
    rw [same]
    exact ((describes_attributes mapping object).get?_eq_some_iff _ _).mpr
      ⟨path, mapped, shows⟩
  warned := rfl

end HostPool

namespace Definition

open HostPool

variable {definition : Definition} {attributes : Option (Field Tags)} {world : World}

/-! ## What reading the hosts keeps and logs -/

/-- Among numbered objects the named ones are kept, and the numbers of the others logged. -/
theorem run_keepHosts (mapping : Tags) (index : Nat) (objects : List Json) :
    (keepHosts mapping index objects).run world none =
      ⟨skips mapping index objects, [], .ok (objects.filterMap (host? mapping))⟩ := by
  induction objects generalizing index with
  | nil => rfl
  | cons object rest ih =>
      have named : IsNamed mapping object ↔ _ := isSome_host?_iff.symm
      rw [keepHosts, skips, List.zipIdx_cons]
      cases read : host? mapping object with
      | none =>
          rw [List.filterMap_cons_none read, List.filter_cons_of_pos (by simp [named, read])]
          simp only [Program.run_bind, Program.run_tell, Run.andThen, ih]
          rfl
      | some host =>
          rw [List.filterMap_cons_some read, List.filter_cons_of_neg (by simp [named, read])]
          simp only [Program.run_bind, ih, Run.andThen, Program.run_pure, List.append_nil]
          rfl

theorem result_run_hostObjects_eq_ok {expression : String} {objects : List Json} :
    ((Program.hostObjects expression).run world none).result = .ok objects ↔
      world.lookup expression = .ok (some (.array objects)) := by
  rw [Program.hostObjects, Program.result_run_bind, Program.run_ask]
  rcases world.lookup expression with error | answer
  · simp [bind, Except.bind]
  · rcases answer with - | other
    · simp [bind, Except.bind, Program.run, Program.runFrom]
    · cases other <;> simp [bind, Except.bind, Program.run, Program.runFrom, pure]

/-- Reading the hosts succeeds with what is kept of the list that the evaluator answers with,
and warns of the others. -/
theorem exists_of_readHosts {hosts : List Host}
    (reads : ((definition.readHosts attributes).run world none).result = .ok hosts) :
    ∃ mapping objects,
      ((Field.provisionedValue true attributes Slot.hostAttributes.name .strict).run world
        none).result = .ok mapping ∧
      world.lookup definition.hostsExpression = .ok (some (.array objects)) ∧
      hosts = objects.filterMap (host? (mapping.getD .empty)) ∧
      ((definition.readHosts attributes).run world none).events.filter (·.level = .warn) =
        skips (mapping.getD .empty) 0 objects := by
  obtain ⟨path, readPath, reads⟩ := Program.result_run_bind_eq_ok.mp reads
  obtain ⟨mapping, readMapping, reads⟩ := Program.result_run_bind_eq_ok.mp reads
  obtain ⟨_, going, reads⟩ := Program.result_run_bind_eq_ok.mp reads
  obtain ⟨objects, answered, reads⟩ := Program.result_run_bind_eq_ok.mp reads
  obtain ⟨_, told, kept⟩ := Program.result_run_bind_eq_ok.mp reads
  rw [run_keepHosts] at kept
  have asked : arrayExpression (path.getD "") = definition.hostsExpression := by
    rw [(Field.endsAs_plain _ _).result world, Field.written_eq_ok_iff] at readPath
    rw [← readPath.2]
    rfl
  refine ⟨mapping, objects, readMapping, ?_, (Except.ok.inj kept).symm, ?_⟩
  · rw [← asked]
    exact result_run_hostObjects_eq_ok.mp answered
  · -- Up to the objects nothing is logged, and then only what was counted, before the skips.
    rw [readHosts, (Field.silent_plain _ _).events_bind readPath,
      (Field.silent_provisionedValue _ _ _ _).events_bind readMapping,
      Program.silent_stopIfCancelled.events_bind going,
      (Program.silent_hostObjects _).events_bind answered, Program.run_bind, Program.run_tell,
      run_keepHosts, Run.andThen]
    exact (List.filter_cons_of_neg (by simp)).trans (filter_skips _ 0 objects)

/-- A pool that is read with its hosts from a provisioner accounts for the host objects that
the evaluator answers with: each object with a name is a host, with the attributes that it
shows, none is lost, added or moved, and each of the others is warned of once, by its index. -/
theorem accounts_provisionedPool (definition : Definition) (surroundings : Surroundings)
    (world : World) (cancelAfter : Option Nat) (outcome : Outcome)
    (hosts : Option (Field HostList)) (filter : Option HostFilter)
    (attributes : Option (Field Tags)) (pool : definition.target = .pdc hosts filter attributes)
    (resolves : ((definition.resolveFields surroundings true).run world cancelAfter).result =
      .ok outcome) :
    ∃ mapping objects names described,
      ((Field.provisionedValue true attributes Slot.hostAttributes.name .strict).run world
        none).result = .ok mapping ∧
      world.lookup definition.hostsExpression = .ok (some (.array objects)) ∧
      outcome.extra = .provisionedPool names described (HostFilter.selection filter) ∧
      Accounts (mapping.getD .empty) objects names described
        (((definition.resolveFields surroundings true).run world cancelAfter).events.filter
          (·.level = .warn)) := by
  have uncancelled : (definition.resolveFields surroundings true).run world cancelAfter =
      (definition.resolveFields surroundings true).run world none :=
    Program.runFrom_eq_of_ok resolves
  rw [uncancelled] at resolves ⊢
  obtain ⟨texts, readTexts, reads⟩ := Program.result_run_bind_eq_ok.mp resolves
  rw [resolveFields, (Reading.silent_readAll _ _ _ _).events_bind readTexts]
  simp only [readTarget, pool, if_true] at reads ⊢
  obtain ⟨kept, readKept, made⟩ := Program.result_run_bind_eq_ok.mp reads
  obtain ⟨mapping, objects, readMapping, answered, rfl, warned⟩ := exists_of_readHosts readKept
  cases made
  refine ⟨mapping, objects, _, _, readMapping, answered, rfl, ?_⟩
  rw [Program.run_bind, Run.andThen_of_ok readKept, Program.run_pure, List.append_nil, warned]
  exact accounts_filterMap_host? _ objects

/-- A provisioned pool whose hosts are named and have a memory. -/
def instancePool : Definition where
  details := ⟨"pool", "Pool", .empty, true, none⟩
  text
    | .credentialsRef => some (.literal "credentials")
    | .hostArrayPath => some (.literal "instances")
    | _ => none
  target := .pdc none none <| some <| .literal <| .ofList
    [("memory", "<+host.size.memory>"), (hostnameAttribute, "name")]

/-- Objects of which the first and the last have a name. -/
def sampleInstances : List Json :=
  [.object [("name", .string "web"), ("size", .object [("memory", .number (.int 8))])],
    .object [("name", .null)], .object [], .object [("name", .string "")],
    .object [("name", .bool true), ("size", .null)]]

/-- Of five objects, two are hosts, and the log names the other three. -/
theorem accounts_instancePool :
    let surroundings : Surroundings :=
      ⟨.unnamed, ⟨"environment", none, .production⟩, none, .empty⟩
    let world : World := ⟨fun _ => .ok (some (.array sampleInstances)), fun _ => .ok none⟩
    let run := (instancePool.resolveFields surroundings true).run world none
    ∃ outcome names described,
      run.result = .ok outcome ∧
      outcome.extra = .provisionedPool names described (HostFilter.selection none) ∧
      names = ["web", "true"] ∧
      Accounts (.ofList [("memory", "<+host.size.memory>"), (hostnameAttribute, "name")])
        sampleInstances names described (run.events.filter (·.level = .warn)) := by
  intro surroundings world run
  obtain ⟨mapping, objects, names, described, read, answered, extra, accounts⟩ :=
    accounts_provisionedPool instancePool surroundings world none _ _ _ _ rfl rfl
  cases read
  cases answered
  refine ⟨_, names, described, rfl, extra, ?_, accounts⟩
  cases extra
  rfl

end Definition

end DeployTarget
