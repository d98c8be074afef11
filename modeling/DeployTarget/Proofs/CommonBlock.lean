import DeployTarget.Proofs.Agreement
import DeployTarget.Proofs.ByteOffset
import DeployTarget.Proofs.KeySegments
import DeployTarget.Proofs.WrittenTags

/-!
# The common block of an outcome

Every outcome carries the same block: what it was resolved in, the names and tags of the
definition, and the key.  A key has forty hexadecimal digits whatever was digested, so it can
always be cut behind its sixth byte.  Only a pool whose hosts are provisioned has an outcome
that is not tagged with its kind, and only the outcomes of clusters show the short key.
-/

namespace DeployTarget

/-! ## Digits of a digest -/

namespace Digest

def hexDigits : List Char :=
  ['0', '1', '2', '3', '4', '5', '6', '7', '8', '9', 'a', 'b', 'c', 'd', 'e', 'f']

theorem digitChar_mem_hexDigits {digit : Nat} (small : digit < 16) :
    Nat.digitChar digit ∈ hexDigits := by
  decide +revert

theorem mem_hexDigits_of_mem_wordHex {word : UInt32} :
    ∀ c ∈ wordHex word, c ∈ hexDigits := by
  intro c member
  obtain ⟨position, -, rfl⟩ := List.mem_map.mp member
  exact digitChar_mem_hexDigits (Nat.mod_lt _ (by decide))

theorem State.mem_hexDigits_of_mem_hex {state : State} :
    ∀ c ∈ state.hex, c ∈ hexDigits := by
  simp only [State.hex, List.forall_mem_append]
  exact ⟨⟨⟨⟨mem_hexDigits_of_mem_wordHex, mem_hexDigits_of_mem_wordHex⟩,
    mem_hexDigits_of_mem_wordHex⟩, mem_hexDigits_of_mem_wordHex⟩, mem_hexDigits_of_mem_wordHex⟩

theorem utf8Size_of_mem_hexDigits : ∀ c ∈ hexDigits, c.utf8Size = 1 := by
  simp [hexDigits, Char.utf8Size_eq_one_iff]

end Digest

namespace Key

/-- A key of forty hexadecimal digits that has a sixth byte to be cut behind. -/
structure IsComplete (key : Key) : Prop where
  length : key.text.toList.length = 40
  digits : ∀ c ∈ key.text.toList, c ∈ Digest.hexDigits
  /-- The short key is what is in front of the cut. -/
  cut : Text.cutAt? key.text.toList 6 = some (key.short.toList, key.text.toList.drop 6)
  shortLength : key.short.toList.length = 6

theorem isComplete_of_digits {key : Key} (length : key.text.toList.length = 40)
    (digits : ∀ c ∈ key.text.toList, c ∈ Digest.hexDigits) : key.IsComplete := by
  have short : key.short.toList = key.text.toList.take 6 := by
    rw [Key.short, String.toList_ofList, shortLength]
  have shortLength : key.short.toList.length = 6 := by
    rw [short, List.length_take, length]
    rfl
  have single : ∀ c ∈ key.short.toList, c.utf8Size = 1 := by
    intro c member
    rw [short] at member
    exact Digest.utf8Size_of_mem_hexDigits c (digits c (List.mem_of_mem_take member))
  refine ⟨length, digits, Text.cutAt?_eq_some_iff.mpr ⟨?_, ?_⟩, shortLength⟩
  · rw [short, List.take_append_drop]
  · rw [Template.byteLength_eq_length single, shortLength]

/-- Every key that is generated is complete. -/
theorem isComplete_generate (service : Option String) (environment : String)
    (parts : List String) : (generate service environment parts).IsComplete := by
  apply isComplete_of_digits
  · rw [generate, String.toList_ofList, Digest.State.length_hex]
  · rw [generate, String.toList_ofList]
    exact Digest.State.mem_hexDigits_of_mem_hex

end Key

/-! ## The common block -/

theorem Outcome.Common.lookup_short (common : Outcome.Common) :
    common.entries.lookup "infrastructureKeyShort" =
      if common.showsShortKey then some (.string common.key.short) else none := by
  unfold entries
  cases common.service <;> cases common.showsShortKey <;> cases common.connector <;>
    simp [Outcome.optionalEntry, List.lookup_cons]

theorem Outcome.Common.lookup_key (common : Outcome.Common) :
    common.entries.lookup "infrastructureKey" = some (.string common.key.text) := by
  unfold entries
  cases common.service <;> simp [List.lookup_cons]

theorem Outcome.tag_eq (outcome : Outcome) :
    outcome.tag =
      if outcome.extra.isProvisionedPool then "PdcProvisioned" else outcome.kind.tag := by
  unfold tag
  cases outcome.extra <;> rfl

/-- The kinds of clusters. -/
def Kind.clusters : List Kind :=
  [.kubernetesDirect, .kubernetesGcp, .kubernetesAzure, .kubernetesAws, .kubernetesRancher]

theorem Kind.hasShortKey_iff (kind : Kind) : kind.hasShortKey = true ↔ kind ∈ clusters := by
  rw [hasShortKey_eq_isKubernetes]
  cases kind <;> decide

/-- An outcome whose common block and variant are those of a definition in its surroundings. -/
structure Outcome.IsOf (outcome : Outcome) (definition : Definition)
    (surroundings : Surroundings) : Prop where
  names : outcome.Names definition
  tag : outcome.tag =
    if definition.kind = .pdc ∧ definition.details.provisioned = true then "PdcProvisioned"
    else definition.kind.tag
  provisioned : outcome.extra.isProvisionedPool = true ↔
    definition.kind = .pdc ∧ definition.details.provisioned = true
  complete : outcome.common.key.IsComplete
  key : outcome.common.entries.lookup "infrastructureKey" =
    some (.string outcome.common.key.text)
  short : outcome.common.entries.lookup "infrastructureKeyShort" =
    if definition.kind ∈ Kind.clusters then some (.string outcome.common.key.short) else none
  environment : outcome.common.environment = surroundings.environment
  service : outcome.common.service = surroundings.service
  tags : outcome.common.tags = definition.details.tags.overlay surroundings.tags

namespace Definition

variable {definition : Definition} {surroundings : Surroundings} {world : World}

/-- Only a pool has provisioned hosts. -/
theorem isProvisionedPool_of_readTarget {dynamic : Bool} {texts : Texts} {outcome : Outcome}
    (read : ((definition.readTarget surroundings dynamic texts).run world none).result =
      .ok outcome) :
    outcome.extra.isProvisionedPool = true ↔ definition.kind = .pdc ∧ dynamic = true := by
  unfold readTarget at read
  rw [kind]
  cases target : definition.target
  case pdc hosts filter attributes =>
    simp only [target] at read
    cases dynamic with
    | true =>
        obtain ⟨found, -, same⟩ := Program.result_run_bind_eq_ok.mp read
        cases same
        simp [outcome, Outcome.Extra.isProvisionedPool, Target.kind]
    | false =>
        cases read
        simp [outcome, Outcome.Extra.isProvisionedPool]
  case sshWinRmAws filter =>
    simp only [target] at read
    obtain ⟨tags, -, behind⟩ := Program.result_run_bind_eq_ok.mp read
    obtain ⟨connection, -, same⟩ := Program.result_run_bind_eq_ok.mp behind
    cases same
    simp [outcome, Outcome.Extra.isProvisionedPool, Target.kind]
  case sshWinRmAzure hostTags =>
    simp only [target] at read
    obtain ⟨tags, -, behind⟩ := Program.result_run_bind_eq_ok.mp read
    obtain ⟨connection, -, same⟩ := Program.result_run_bind_eq_ok.mp behind
    cases same
    simp [outcome, Outcome.Extra.isProvisionedPool, Target.kind]
  case customDeployment reference settings =>
    simp only [target] at read
    obtain ⟨values, -, same⟩ := Program.result_run_bind_eq_ok.mp read
    cases same
    simp [outcome, Outcome.Extra.isProvisionedPool, Target.kind]
  all_goals
    simp only [target] at read
    cases read
    simp [outcome, Outcome.Extra.isProvisionedPool, Target.kind]

/-- An outcome has provisioned hosts if and only if it is that of a pool that says so. -/
theorem isProvisionedPool_of_resolve_eq_ok {cancelAfter : Option Nat} {outcome : Outcome}
    (resolves : ((definition.resolve surroundings).run world cancelAfter).result =
      .ok outcome) :
    outcome.extra.isProvisionedPool = true ↔
      definition.kind = .pdc ∧ definition.details.provisioned = true := by
  obtain ⟨-, base, readFields, rfl⟩ :=
    resolve_eq_ok_iff.mp (Program.result_run_none_of_ok resolves)
  obtain ⟨texts, -, readBehind⟩ := resolveFields_eq_ok.mp readFields
  rw [extra_withConnector, isProvisionedPool_of_readTarget readBehind]
  refine and_congr_right fun pool => ?_
  rw [isDynamic, pool]
  rfl

/-- Every outcome carries the common block of its definition in its surroundings. -/
theorem isOf_resolve (definition : Definition) (surroundings : Surroundings) (world : World)
    (cancelAfter : Option Nat) (outcome : Outcome)
    (resolves : ((definition.resolve surroundings).run world cancelAfter).result =
      .ok outcome) : outcome.IsOf definition surroundings := by
  have names := names_of_resolve_eq_ok resolves
  have provisioned := isProvisionedPool_of_resolve_eq_ok resolves
  obtain ⟨_, -, generated, -⟩ := exists_reads_of_resolve_eq_ok resolves
  obtain ⟨texts, extra, -, -, same⟩ := exists_of_resolve_eq_ok resolves
  obtain ⟨connector, common⟩ := definition.exists_common_withConnector world.connector
    surroundings.scope (definition.outcome surroundings definition.isDynamic texts extra)
  rw [same] at common
  refine ⟨names, ?_, provisioned, ?_, outcome.common.lookup_key, ?_, ?_, ?_,
    tags_of_resolve_eq_ok resolves⟩
  · rw [Outcome.tag_eq, names.kind]
    simp only [provisioned]
  · rw [generated]
    exact Key.isComplete_generate _ _ _
  · rw [outcome.common.lookup_short, common]
    simp only [Definition.outcome, Definition.common, Kind.hasShortKey_iff]
  · rw [common]
    rfl
  · rw [common]
    rfl

/-- A provisioned pool is resolved, and its outcome is not tagged with its kind. -/
theorem isOf_resolve_samplePool :
    let surroundings : Surroundings :=
      ⟨.unnamed, ⟨"environment", none, .production⟩, none, .empty⟩
    let world : World := ⟨fun _ => .ok (some (.array [])), fun _ => .ok none⟩
    ∃ outcome, (((samplePool true).resolve surroundings).run world none).result = .ok outcome ∧
      outcome.tag = "PdcProvisioned" ∧ outcome.IsOf (samplePool true) surroundings := by
  intro surroundings world
  exact ⟨_, rfl, rfl, isOf_resolve (samplePool true) surroundings world none _ rfl⟩

end Definition

end DeployTarget
