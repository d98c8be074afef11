import DeployTarget.Proofs.ConnectorName
import DeployTarget.Proofs.Inquiry
import DeployTarget.Proofs.Verdict

/-!
# The texts behind an outcome

A resolution that succeeds has passed the checks, and its outcome is made of the texts
that were read.  Each reading of a kind yields at most one text, which is found in the
outcome under its attribute.
-/

namespace DeployTarget

/-- The entry of another attribute does not hide a text. -/
theorem lookup_cons_of_ne {name first : Attribute} (different : name ≠ first) (text : String)
    (texts : Texts) : List.lookup name ((first, text) :: texts) = texts.lookup name := by
  rw [List.lookup_cons, beq_eq_false_iff_ne.mpr different]

/-- Whether a reading yields a text even where the attribute is absent. -/
def Manner.isTotal : Manner → Bool
  | .plain | .provisioned | .release => true
  | .plainOrAbsent | .plainOrBlank => false

namespace Reading

variable {world : World} {surroundings : Surroundings} {definition : Definition}
  {dynamic : Bool}

theorem readAll_cons_eq_ok {reading : Reading} {rest : List Reading} {texts : Texts} :
    ((readAll surroundings definition dynamic (reading :: rest)).run world none).result =
        .ok texts ↔
      ∃ text others,
        ((reading.read surroundings definition dynamic).run world none).result = .ok text ∧
        ((readAll surroundings definition dynamic rest).run world none).result = .ok others ∧
        (text.map fun text => (reading.name, text)).toList ++ others = texts := by
  simp only [readAll, Program.result_run_bind_eq_ok, Program.run_pure, Except.ok.injEq]
  constructor
  · rintro ⟨text, read, others, readOthers, same⟩
    exact ⟨text, others, read, readOthers, same⟩
  · rintro ⟨text, others, read, readOthers, same⟩
    exact ⟨text, read, others, readOthers, same⟩

/-- An attribute that is not read has no text. -/
theorem lookup_eq_none_of_not_mem {readings : List Reading} {texts : Texts}
    (read : ((readAll surroundings definition dynamic readings).run world none).result =
      .ok texts)
    {name : Attribute} (unread : name ∉ readings.map (·.name)) :
    texts.lookup name = none := by
  induction readings generalizing texts with
  | nil =>
      cases read
      rfl
  | cons reading rest ih =>
      obtain ⟨text, others, -, readOthers, rfl⟩ := readAll_cons_eq_ok.mp read
      simp only [List.map_cons, List.mem_cons, not_or] at unread
      rw [List.lookup_append, ih readOthers unread.2]
      cases text <;> simp [lookup_cons_of_ne unread.1]

/-- Each reading yields the text that is found under its attribute. -/
theorem result_read_of_mem {readings : List Reading} {texts : Texts}
    (distinct : (readings.map (·.name)).Nodup)
    (read : ((readAll surroundings definition dynamic readings).run world none).result =
      .ok texts)
    {reading : Reading} (member : reading ∈ readings) :
    ((reading.read surroundings definition dynamic).run world none).result =
      .ok (texts.lookup reading.name) := by
  induction readings generalizing texts with
  | nil => cases member
  | cons first rest ih =>
      obtain ⟨text, others, readFirst, readOthers, rfl⟩ := readAll_cons_eq_ok.mp read
      simp only [List.map_cons, List.nodup_cons] at distinct
      rw [List.lookup_append]
      rcases List.mem_cons.mp member with rfl | later
      · rw [readFirst, lookup_eq_none_of_not_mem readOthers distinct.1]
        cases text <;> simp
      · have different : reading.name ≠ first.name := fun same =>
          distinct.1 (same ▸ List.mem_map_of_mem later)
        rw [ih distinct.2 readOthers later]
        cases text <;> simp [lookup_cons_of_ne different]

theorem isSome_of_isTotal {reading : Reading} {text : Option String}
    (total : reading.manner.isTotal = true)
    (read : ((reading.read surroundings definition dynamic).run world none).result =
      .ok text) : text.isSome := by
  obtain ⟨name, manner⟩ := reading
  cases manner with
  | plain =>
      obtain ⟨written, -, same⟩ := Program.result_run_bind_eq_ok.mp read
      cases same
      rfl
  | provisioned =>
      obtain ⟨written, -, same⟩ := Program.result_run_bind_eq_ok.mp read
      cases same
      rfl
  | release =>
      obtain ⟨written, -, same⟩ := Program.result_run_bind_eq_ok.mp read
      cases same
      rfl
  | plainOrAbsent => cases total
  | plainOrBlank => cases total

end Reading

/-- No kind reads an attribute twice. -/
theorem Kind.nodup_readings (kind : Kind) : (kind.readings.map (·.name)).Nodup := by
  cases kind <;> decide

/-- The way to reach hosts is not among the attributes that a kind reads first. -/
theorem Kind.name_ne_hostConnectionType (kind : Kind) :
    ∀ reading ∈ kind.readings, reading.name ≠ .hostConnectionType := by
  cases kind <;> decide

namespace Definition

variable {world : World} {surroundings : Surroundings} {definition : Definition}
  {dynamic : Bool}

/-! ## Resolutions that succeed -/

theorem resolveFields_eq_ok {outcome : Outcome} :
    ((definition.resolveFields surroundings dynamic).run world none).result = .ok outcome ↔
      ∃ texts,
        ((Reading.readAll surroundings definition dynamic definition.kind.readings).run world
          none).result = .ok texts ∧
        ((definition.readTarget surroundings dynamic texts).run world none).result =
          .ok outcome :=
  Program.result_run_bind_eq_ok

/-- A resolution succeeds if and only if the definition passes its checks and every read
succeeds; the outcome then has the name of the connector as well. -/
theorem resolve_eq_ok_iff {outcome : Outcome} :
    ((definition.resolve surroundings).run world none).result = .ok outcome ↔
      definition.Passes definition.isDynamic ∧
      ∃ base,
        ((definition.resolveFields surroundings definition.isDynamic).run world none).result =
          .ok base ∧
        definition.withConnector world.connector surroundings.scope base = outcome := by
  have checked := (definition.endsAs_validate surroundings.environment).result world
  simp only [resolve_eq, Program.result_run_bind_eq_ok, result_addConnector, checked]
  constructor
  · rintro ⟨⟨⟩, verdict, ⟨⟩, -, base, read, _, added, ⟨⟩, -, ended⟩
    cases added
    cases ended
    exact ⟨verdict_eq_ok_iff.mp verdict, base, read, rfl⟩
  · rintro ⟨passes, base, read, rfl⟩
    exact ⟨(), verdict_eq_ok_iff.mpr passes, (), rfl, base, read, _, rfl, (), rfl, rfl⟩

/-! ## What only a kind reads -/

/-- What an outcome carries besides its texts agrees with the definition. -/
structure Carries (definition : Definition) (dynamic : Bool) (extra : Outcome.Extra) :
    Prop where
  template : ∀ reference settings, definition.target = .customDeployment reference settings →
    ∃ values, extra = .template (reference.getD ⟨"", ""⟩) values
  /-- A pool carries hosts with attributes if and only if they are provisioned. -/
  pool : definition.kind = .pdc →
    if dynamic then ∃ hosts attributes filter, extra = .provisionedPool hosts attributes filter
    else ∃ hosts filter, extra = .pool hosts filter

private theorem readConnectionType_eq_ok {connection : Texts}
    (read : ((readConnectionType surroundings definition dynamic).run world none).result =
      .ok connection) {name : Attribute} (other : name ≠ .hostConnectionType) :
    connection.lookup name = none :=
  Reading.lookup_eq_none_of_not_mem read (by simpa using other)

/-- The last reads of a definition add at most the way to reach the hosts to its texts. -/
theorem exists_of_readTarget_eq_ok {texts : Texts} {outcome : Outcome}
    (read : ((definition.readTarget surroundings dynamic texts).run world none).result =
      .ok outcome) :
    ∃ connection extra,
      (∀ name ≠ .hostConnectionType, List.lookup name connection = none) ∧
      definition.Carries dynamic extra ∧
      outcome = definition.outcome surroundings dynamic (texts ++ connection) extra := by
  have plain {extra : Outcome.Extra} (carries : definition.Carries dynamic extra) :
      ∃ connection other, (∀ name ≠ .hostConnectionType, List.lookup name connection = none) ∧
        definition.Carries dynamic other ∧
        definition.outcome surroundings dynamic texts extra =
          definition.outcome surroundings dynamic (texts ++ connection) other :=
    ⟨[], extra, fun _ _ => rfl, carries, by rw [List.append_nil]⟩
  unfold readTarget at read
  cases target : definition.target
  case pdc hosts filter attributes =>
    simp only [target] at read
    cases dynamic with
    | true =>
        obtain ⟨found, -, same⟩ := Program.result_run_bind_eq_ok.mp read
        cases same
        exact plain ⟨by simp [target], fun _ => ⟨_, _, _, rfl⟩⟩
    | false =>
        cases read
        exact plain ⟨by simp [target], fun _ => ⟨_, _, rfl⟩⟩
  case sshWinRmAws filter =>
    simp only [target] at read
    obtain ⟨tags, -, behind⟩ := Program.result_run_bind_eq_ok.mp read
    obtain ⟨connection, readConnection, same⟩ := Program.result_run_bind_eq_ok.mp behind
    cases same
    exact ⟨connection, _, fun name other => readConnectionType_eq_ok readConnection other,
      ⟨by simp [target], by simp [kind, target, Target.kind]⟩, rfl⟩
  case sshWinRmAzure hostTags =>
    simp only [target] at read
    obtain ⟨tags, -, behind⟩ := Program.result_run_bind_eq_ok.mp read
    obtain ⟨connection, readConnection, same⟩ := Program.result_run_bind_eq_ok.mp behind
    cases same
    exact ⟨connection, _, fun name other => readConnectionType_eq_ok readConnection other,
      ⟨by simp [target], by simp [kind, target, Target.kind]⟩, rfl⟩
  case customDeployment reference settings =>
    simp only [target] at read
    obtain ⟨values, -, same⟩ := Program.result_run_bind_eq_ok.mp read
    cases same
    exact plain ⟨by simp [target], by simp [kind, target, Target.kind]⟩
  all_goals
    simp only [target] at read
    cases read
    exact plain ⟨by simp [target], by simp [kind, target, Target.kind]⟩

/-! ## What a successful resolution consists of -/

/-- Texts in which each reading of a definition finds its own. -/
def Reads (definition : Definition) (surroundings : Surroundings) (dynamic : Bool)
    (world : World) (texts : Texts) : Prop :=
  ∀ reading ∈ definition.kind.readings,
    ((reading.read surroundings definition dynamic).run world none).result =
      .ok (texts.lookup reading.name)

/-- The outcome of a resolution is made of the texts that were read, of what only the kind
reads, and of the name of the connector. -/
theorem exists_of_resolve_eq_ok {cancelAfter : Option Nat} {outcome : Outcome}
    (resolves : ((definition.resolve surroundings).run world cancelAfter).result =
      .ok outcome) :
    ∃ texts extra,
      definition.Reads surroundings definition.isDynamic world texts ∧
      definition.Carries definition.isDynamic extra ∧
      definition.withConnector world.connector surroundings.scope
        (definition.outcome surroundings definition.isDynamic texts extra) = outcome := by
  obtain ⟨-, base, readFields, rfl⟩ :=
    resolve_eq_ok_iff.mp (Program.result_run_none_of_ok resolves)
  obtain ⟨texts, read, readBehind⟩ := resolveFields_eq_ok.mp readFields
  obtain ⟨connection, extra, others, carries, rfl⟩ := exists_of_readTarget_eq_ok readBehind
  refine ⟨texts ++ connection, extra, fun reading member => ?_, carries, rfl⟩
  rw [List.lookup_append, others _ (definition.kind.name_ne_hostConnectionType _ member),
    Option.or_none]
  exact Reading.result_read_of_mem definition.kind.nodup_readings read member

end Definition

end DeployTarget
