import DeployTarget.Proofs.Lookup
import DeployTarget.Proofs.Parsing
import DeployTarget.Proofs.Texts

/-!
# Tags of a document

The tags that a document writes into the body of a definition are those of the definition,
and they arrive in every outcome unless the caller has tags of the same names.  One kind
reads the same entry as a filter of its hosts: its definitions have no tags of their own.
-/

namespace DeployTarget

open Source Source.Typed

/-! ## Entries that are written and read -/

theorem single?_eq_some {ν : Type} {entries single : List (String × ν)} :
    single? entries = some single ↔ (entries.map Prod.fst).Nodup ∧ entries = single := by
  unfold single?
  split <;> simp_all

namespace Yaml.Value

theorem eq_text_of_same {key : Value} {name : String} (same : key.same (text name) = true) :
    key = text name := by
  cases key with
  | scalar scalar =>
      cases scalar <;> simp_all [Value.same, Scalar.same, text]
  | sequence | mapping | tagged => simp [Value.same, text] at same

/-- A value that is written for a name stands among the entries of its mapping. -/
theorem exists_entry_of_get? {name : String} {value found : Value}
    (written : value.get? name = some found) :
    ∃ entries, value.untagged = .mapping entries ∧ (text name, found) ∈ entries := by
  unfold get? at written
  split at written
  next entries isMapping =>
    obtain ⟨⟨key, other⟩, first, rfl⟩ := Option.map_eq_some_iff.mp written
    have same := List.find?_some first
    rw [← eq_text_of_same same]
    exact ⟨entries, isMapping, List.mem_of_find?_eq_some first⟩
  · cases written

theorem mem_named? {name : String} {found : Value} {entries : List (Value × Value)}
    {named : List (String × Value)} (readable : named? entries = some named)
    (written : (text name, found) ∈ entries) : (name, found) ∈ named := by
  obtain ⟨result, listed, ⟨⟩⟩ := exists_of_mapM_eq_some readable written
  exact listed

end Yaml.Value

open Yaml

theorem Held.mem_entries? {names : List String} {name : String} {found : Value}
    {entries : List (Value × Value)} {named : List (String × Held)}
    (readable : Held.entries? names entries = some named)
    (written : (Value.text name, found) ∈ entries) : (name, ⟨found⟩) ∈ named := by
  obtain ⟨optional, read, same⟩ := Option.bind_eq_some_iff.mp readable
  cases same
  obtain ⟨result, listed, ⟨⟩⟩ := exists_of_mapM_eq_some read written
  exact List.mem_filterMap.mpr ⟨_, listed, rfl⟩

theorem tags?_of_held {value : Value} {tags : Tags}
    (read : Source.tags? (Held.mk value) = some tags) : Source.tags? value = some tags := by
  obtain ⟨entries, readEntries, read⟩ := Option.bind_eq_some_iff.mp read
  obtain ⟨pairs, readPairs, same⟩ := Option.bind_eq_some_iff.mp read
  cases same
  cases value with
  | mapping written =>
      obtain ⟨named, readable, same⟩ := Option.bind_eq_some_iff.mp readEntries
      cases same
      -- The entries of the value itself are those that were held, without the wrapping.
      have agree := mapM_eq_some_of_forall
        (fun entry : String × Value => do
          let text ← text? entry.2
          return (entry.1, text))
        (fun entry : String × Held => (entry.1, entry.2.value)) (fun entry result readOne => by
            obtain ⟨text, readText, same⟩ := Option.bind_eq_some_iff.mp readOne
            cases same
            have stricter : Value.text? entry.2.value = some text := by
              obtain ⟨name, ⟨value⟩⟩ := entry
              cases value with
              | scalar scalar => cases scalar <;> exact readText
              | sequence | mapping | tagged => cases readText
            exact Option.bind_eq_some_iff.mpr ⟨text, stricter, rfl⟩) readPairs
      simp only [List.map_map, Function.comp_def, List.map_id'] at agree
      exact Option.bind_eq_some_iff.mpr ⟨named, readable,
        Option.bind_eq_some_iff.mpr ⟨pairs, agree, rfl⟩⟩
  | scalar | sequence | tagged => cases readEntries

/-! ## The body of a choice -/

/-- The entries of a body, where it holds the written value for a name as it is. -/
def Source.Shows {ν : Type} [Source.Typed ν] (data : ν) (name : String) (value : Value) : Prop :=
  ∀ entries, open? data = some entries →
    ∃ item, (name, item) ∈ entries ∧ ∀ held, held? item = some held → held = ⟨value⟩

theorem eq_of_held? {value : Value} {held : Held} (holds : held? value = some held) :
    held = ⟨value⟩ := by
  change (if value.hasTag then none else some (Held.mk value)) = some held at holds
  split at holds
  · cases holds
  · exact (Option.some.inj holds).symm

theorem shows_of_get? {name : String} {body value : Value}
    (written : body.get? name = some value) : Source.Shows body name value := by
  obtain ⟨written, isMapping, member⟩ := Value.exists_entry_of_get? written
  intro entries opened
  have readable : Value.named? written = some entries := by
    simpa only [open?, isMapping] using opened
  exact ⟨value, Value.mem_named? readable member, fun _ => eq_of_held?⟩

theorem shows_held_of_get? {name : String} {body value : Value}
    (written : body.get? name = some value) : Source.Shows (Held.mk body) name value := by
  obtain ⟨written, isMapping, member⟩ := Value.exists_entry_of_get? written
  intro entries opened
  cases body with
  | mapping others =>
      cases isMapping
      exact ⟨⟨value⟩, Held.mem_entries? opened member, fun held same =>
        (Option.some.inj same).symm⟩
  | scalar | sequence | tagged => cases opened

namespace Choice

/-- A choice is read by its body: from the value that is written for it, or from the same
value held back. -/
theorem exists_readBody_of_read? {α : Type}
    {readBody : {μ : Type} → [Source.Typed μ] → String → Option μ → Option α} {value body : Value}
    {result : α} (read : Choice.read? readBody value = some result)
    (written : value.get? bodyName = some body) :
    ∃ tag, readBody tag (some body) = some result ∨
      readBody tag (some (Held.mk body)) = some result := by
  obtain ⟨written, isMapping, member⟩ := Value.exists_entry_of_get? written
  obtain ⟨entries, readEntries, read⟩ := Option.bind_eq_some_iff.mp read
  have recorded : Value.recordEntries? [tagName, bodyName] written = some entries := by
    simpa only [record?, isMapping] using readEntries
  obtain ⟨named, readable, single⟩ := Option.bind_eq_some_iff.mp recorded
  obtain ⟨distinct, rfl⟩ := single?_eq_some.mp single
  have listed : (bodyName, body) ∈ named.filter fun entry => entry.1 ∈ [tagName, bodyName] :=
    List.mem_filter.mpr ⟨Value.mem_named? readable member, by simp⟩
  have found := lookup_of_mem distinct listed
  split at read
  · cases read
  next first value rest equation _ =>
    rw [equation, lookup_cons_eq_ite] at found
    split at read
    next isTag =>
      obtain ⟨tag, -, read⟩ := Option.bind_eq_some_iff.mp read
      rw [if_neg (by rw [isTag]; decide)] at found
      rw [found] at read
      exact ⟨tag, .inl read⟩
    next isBody =>
      obtain ⟨held, readHeld, behind⟩ := Option.bind_eq_some_iff.mp read
      obtain ⟨tag, -, readBack⟩ := Option.bind_eq_some_iff.mp behind
      have among : (first, value) ∈ named.filter fun entry => entry.1 ∈ [tagName, bodyName] := by
        rw [equation]
        exact List.mem_cons_self
      have known : first = tagName ∨ first = bodyName := by
        simpa using (List.mem_filter.mp among).2
      rw [if_pos (known.resolve_left isBody).symm] at found
      cases found
      cases eq_of_held? readHeld
      exact ⟨tag, .inr readBack⟩
  · cases read

end Choice

/-! ## The tags of a definition -/

/-- Only one kind has a slot under the name of the tags. -/
theorem Kind.tags_mem_slots (kind : Kind) :
    "tags" ∈ kind.slots.map Slot.name ↔ kind = .sshWinRmAzure := by
  cases kind <;> decide

namespace Target

theorem kind_of_ofEntries? {ν : Type} [Source.Typed ν] {kind : Kind} {entries : List (String × ν)}
    {target : Target} (read : Target.ofEntries? kind entries = some target) :
    target.kind = kind := by
  cases kind
  case kubernetesAzure | sshWinRmAws | sshWinRmAzure | elastigroup =>
    obtain ⟨_, -, rfl⟩ := Option.map_eq_some_iff.mp read
    rfl
  case pdc =>
    obtain ⟨_, -, read⟩ := Option.bind_eq_some_iff.mp read
    obtain ⟨_, -, read⟩ := Option.bind_eq_some_iff.mp read
    obtain ⟨_, -, same⟩ := Option.bind_eq_some_iff.mp read
    cases same
    rfl
  case customDeployment =>
    obtain ⟨_, -, read⟩ := Option.bind_eq_some_iff.mp read
    obtain ⟨_, -, same⟩ := Option.bind_eq_some_iff.mp read
    cases same
    rfl
  all_goals
    cases read
    rfl

end Target

namespace Details

/-- The tags of details are read from the entries that belong to details. -/
theorem optional_tags_of_ofEntries? {ν : Type} [Source.Typed ν] {entries : List (String × ν)}
    {details : Details} (read : Details.ofEntries? entries = some details) :
    ((entries.filter fun entry => entry.1 ∈ names).map Prod.fst).Nodup ∧
      Source.optional .empty Source.tags? (entries.filter fun entry => entry.1 ∈ names) "tags" =
        some details.tags := by
  obtain ⟨single, readSingle, read⟩ := Option.bind_eq_some_iff.mp read
  obtain ⟨distinct, rfl⟩ := single?_eq_some.mp readSingle
  obtain ⟨_, -, read⟩ := Option.bind_eq_some_iff.mp read
  obtain ⟨_, -, read⟩ := Option.bind_eq_some_iff.mp read
  obtain ⟨tags, readTags, read⟩ := Option.bind_eq_some_iff.mp read
  obtain ⟨_, -, read⟩ := Option.bind_eq_some_iff.mp read
  obtain ⟨_, -, same⟩ := Option.bind_eq_some_iff.mp read
  cases same
  exact ⟨distinct, readTags⟩

/-- Where no tags are written the details have none. -/
theorem tags_of_ofEntries?_of_absent {ν : Type} [Source.Typed ν] {entries : List (String × ν)}
    {details : Details} (read : Details.ofEntries? entries = some details)
    (absent : ∀ entry ∈ entries, entry.1 ≠ "tags") : details.tags = .empty := by
  have readTags := (optional_tags_of_ofEntries? read).2
  have unwritten : (entries.filter fun entry => entry.1 ∈ names).lookup "tags" = none :=
    lookup_eq_none_of_not_mem_keys fun member => by
      obtain ⟨entry, listed, named⟩ := List.mem_map.mp member
      exact absent entry (List.mem_filter.mp listed).1 named
  rw [Source.optional, unwritten] at readTags
  exact (Option.some.inj readTags).symm

theorem tags_of_ofEntries? {ν : Type} [Source.Typed ν] {entries : List (String × ν)}
    {details : Details} (read : Details.ofEntries? entries = some details) {item : ν}
    (written : ("tags", item) ∈ entries) : Source.tags? item = some details.tags := by
  obtain ⟨distinct, readTags⟩ := optional_tags_of_ofEntries? read
  have found := lookup_of_mem distinct (List.mem_filter.mpr ⟨written, by simp [names]⟩)
  rw [Source.optional, found] at readTags
  exact readTags

end Details

namespace Definition

/-- The tags that a document writes into the body of a definition. -/
def writtenTags? (value : Value) : Option Tags := do
  let body ← value.get? Choice.bodyName
  let tags ← body.get? "tags"
  Source.tags? tags

/-- The tags that are written into a body are those of the definition, unless its kind takes
them for a filter of hosts. -/
private theorem tags_of_readBody? {ν : Type} [Source.Typed ν] {tag : String} {body : ν}
    {definition : Definition} {written : Value} {tags : Tags}
    (read : readBody? tag (some body) = some definition) (shows : Source.Shows body "tags" written)
    (readable : Source.tags? written = some tags) :
    definition.details.tags = if definition.kind = .sshWinRmAzure then .empty else tags := by
  obtain ⟨kind, -, read⟩ := Option.bind_eq_some_iff.mp read
  obtain ⟨entries, opened, read⟩ := Option.bind_eq_some_iff.mp read
  obtain ⟨own, -, read⟩ := Option.bind_eq_some_iff.mp read
  obtain ⟨others, readOthers, read⟩ := Option.bind_eq_some_iff.mp read
  obtain ⟨details, readDetails, read⟩ := Option.bind_eq_some_iff.mp read
  obtain ⟨text, -, read⟩ := Option.bind_eq_some_iff.mp read
  obtain ⟨target, readTarget, same⟩ := Option.bind_eq_some_iff.mp read
  cases same
  obtain ⟨item, member, held⟩ := shows entries opened
  rw [show Definition.kind ⟨details, text, target⟩ = kind from
    Target.kind_of_ofEntries? readTarget]
  change details.tags = _
  split
  next azure =>
    refine Details.tags_of_ofEntries?_of_absent readDetails fun entry listed named => ?_
    obtain ⟨other, among, readOther⟩ := exists_of_mem_mapM readOthers entry listed
    obtain ⟨value, -, same⟩ := Option.bind_eq_some_iff.mp readOther
    cases same
    have unowned := (List.mem_filter.mp among).2
    rw [show other.1 = "tags" from named, decide_eq_true_eq] at unowned
    exact unowned ((Kind.tags_mem_slots kind).mpr azure)
  next other =>
    have among : ("tags", item) ∈ entries.filter fun entry => entry.1 ∉ kind.slots.map Slot.name :=
      List.mem_filter.mpr ⟨member, decide_eq_true fun owned =>
        other ((Kind.tags_mem_slots kind).mp owned)⟩
    obtain ⟨entry, listed, readEntry⟩ := exists_of_mapM_eq_some readOthers among
    obtain ⟨value, readHeld, same⟩ := Option.bind_eq_some_iff.mp readEntry
    cases same
    rw [held value readHeld] at listed
    have found := tags?_of_held (Details.tags_of_ofEntries? readDetails listed)
    exact Option.some.inj (found.symm.trans readable)

theorem tags_of_ofValue {value : Value} {definition : Definition} {written : Tags}
    (parsed : ofValue value = .ok definition) (writes : writtenTags? value = some written) :
    definition.details.tags =
      if definition.kind = .sshWinRmAzure then .empty else written := by
  obtain ⟨body, hasBody, writes⟩ := Option.bind_eq_some_iff.mp writes
  obtain ⟨tags, hasTags, readable⟩ := Option.bind_eq_some_iff.mp writes
  obtain ⟨tag, read | read⟩ :=
    Choice.exists_readBody_of_read? (read?_of_ofValue parsed) hasBody
  · exact tags_of_readBody? read (shows_of_get? hasTags) readable
  · exact tags_of_readBody? read (shows_held_of_get? hasTags) readable

/-! ## The tags of an outcome -/

variable {definition : Definition} {surroundings : Surroundings} {world : World}

theorem tags_of_resolve_eq_ok {cancelAfter : Option Nat} {outcome : Outcome}
    (resolves : ((definition.resolve surroundings).run world cancelAfter).result =
      .ok outcome) :
    outcome.common.tags = definition.details.tags.overlay surroundings.tags := by
  obtain ⟨texts, extra, -, -, rfl⟩ := exists_of_resolve_eq_ok resolves
  unfold withConnector
  split <;> rfl

/-- Every tag that a document writes into its body arrives in the outcome: with the value
that the caller has for it, else with its own.  The kind that filters its hosts by tags loses
them; there a tag arrives only if it is one of the caller's. -/
theorem get?_tags_of_resolve (value : Value) (definition : Definition) (written : Tags)
    (surroundings : Surroundings) (world : World) (cancelAfter : Option Nat)
    (outcome : Outcome) (parsed : ofValue value = .ok definition)
    (writes : writtenTags? value = some written)
    (resolves : ((definition.resolve surroundings).run world cancelAfter).result = .ok outcome)
    (key text : String) (tagged : written.get? key = some text) :
    outcome.common.tags.get? key =
      if definition.kind = .sshWinRmAzure then surroundings.tags.get? key
      else some ((surroundings.tags.get? key).getD text) := by
  rw [tags_of_resolve_eq_ok resolves, OrderedMap.get?_overlay, tags_of_ofValue parsed writes]
  split
  next => exact Option.or_none
  next =>
    rw [tagged]
    cases surroundings.tags.get? key <;> rfl

/-- A document of a kind, with the tags `team` and `tier` in its body. -/
def taggedDocument (kind : Kind) : Value :=
  .mapping
    [(.text "type", .text kind.tag),
      (.text "spec", .mapping
        [(.text "infraIdentifier", .text "target"),
          (.text "tags", .mapping
            [(.text "team", .text "blue"), (.text "tier", .text "back")]),
          (.text "connectorRef", .text "connector"),
          (.text "credentialsRef", .text "credentials"),
          (.text "subscriptionId", .text "subscription"),
          (.text "resourceGroup", .text "group"),
          (.text "region", .text "north")])]

/-- The surroundings of a caller with a tag `team` of its own. -/
def taggingCaller : Surroundings :=
  ⟨.unnamed, ⟨"environment", none, .production⟩, none, .ofList [("team", "red")]⟩

/-- The tag of the caller wins over that of a function; the other one arrives as written. -/
theorem get?_tags_of_resolve_taggedDocument :
    ∃ definition outcome, ofValue (taggedDocument .awsLambda) = .ok definition ∧
      ((definition.resolve taggingCaller).run ⟨fun _ => .ok none, fun _ => .ok none⟩
        none).result = .ok outcome ∧
      outcome.common.tags.get? "team" = some "red" ∧
      outcome.common.tags.get? "tier" = some "back" := by
  have arrives := get?_tags_of_resolve (taggedDocument .awsLambda) _ _ taggingCaller
    ⟨fun _ => .ok none, fun _ => .ok none⟩ none _ rfl rfl rfl
  exact ⟨_, _, rfl, rfl, arrives "team" "blue" rfl, arrives "tier" "back" rfl⟩

/-- Of a target whose kind filters its hosts by tags, the tags do not arrive. -/
theorem lacks_tags_taggedDocument :
    ¬ ∀ (kind : Kind) (value : Value) (definition : Definition) (written : Tags)
        (surroundings : Surroundings) (world : World) (outcome : Outcome),
      ofValue value = .ok definition → definition.kind = kind →
      writtenTags? value = some written →
      ((definition.resolve surroundings).run world none).result = .ok outcome →
      ∀ key text, written.get? key = some text →
        outcome.common.tags.get? key = some ((surroundings.tags.get? key).getD text) := by
  intro arrive
  have arrives := arrive .sshWinRmAzure (taggedDocument .sshWinRmAzure) _ _ taggingCaller
    ⟨fun _ => .ok none, fun _ => .ok none⟩ _ rfl rfl rfl rfl "tier" "back" rfl
  exact absurd arrives (by decide)

end Definition

end DeployTarget
