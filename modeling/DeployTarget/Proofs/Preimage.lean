import DeployTarget.Proofs.KeySegments

/-!
# What the digested text tells

The segments of a key are joined by dashes, and a segment may hold dashes of its own.  So
the joined text tells the segments only together with the number of dashes that each of
them holds: a dash that moves from one segment to the next leaves the text as it was.
-/

namespace DeployTarget

/-! ## Joined lists -/

section Join

variable {α : Type} [BEq α] [LawfulBEq α] {separator : α}

/-- A separator is found again by the number of separators in front of it. -/
theorem append_cons_inj_of_count {first second rest others : List α}
    (same : first ++ separator :: rest = second ++ separator :: others)
    (count : first.count separator = second.count separator) :
    first = second ∧ rest = others := by
  induction first generalizing second with
  | nil =>
      cases second with
      | nil => exact ⟨rfl, (List.cons.inj same).2⟩
      | cons head tail =>
          obtain ⟨rfl, -⟩ := List.cons.inj same
          rw [List.count_cons_self] at count
          cases count
  | cons item items ih =>
      cases second with
      | nil =>
          obtain ⟨rfl, -⟩ := List.cons.inj same
          rw [List.count_cons_self] at count
          cases count
      | cons head tail =>
          obtain ⟨rfl, behind⟩ := List.cons.inj same
          obtain ⟨rfl, rfl⟩ := ih behind (by simpa [List.count_cons] using count)
          exact ⟨rfl, rfl⟩

/-- Of two lists of equal length, the joined lists are told apart unless corresponding items
hold different numbers of separators. -/
theorem intercalate_inj_of_count {first second : List (List α)}
    (length : first.length = second.length)
    (counts : first.map (List.count separator) = second.map (List.count separator))
    (same : [separator].intercalate first = [separator].intercalate second) :
    first = second := by
  induction first generalizing second with
  | nil => exact (List.eq_nil_of_length_eq_zero length.symm).symm
  | cons item items ih =>
      cases second with
      | nil => cases length
      | cons head tail =>
          simp only [List.map_cons, List.cons.injEq, List.length_cons, Nat.add_right_cancel_iff]
            at counts length
          cases items with
          | nil =>
              obtain rfl := List.eq_nil_of_length_eq_zero length.symm
              simpa using same
          | cons next items =>
              cases tail with
              | nil => cases length
              | cons after tail =>
                  simp only [List.intercalate_cons_cons, List.append_assoc,
                    List.singleton_append] at same
                  obtain ⟨rfl, behind⟩ := append_cons_inj_of_count same counts.1
                  rw [ih length counts.2 behind]

end Join

namespace Key

/-! ## The source of a key -/

/-- What a key is generated from. -/
structure Source where
  service : Option String
  environment : String
  parts : List String
deriving DecidableEq

namespace Source

def segments (source : Source) : List String :=
  Key.segments source.service source.environment source.parts

/-- The text that is digested. -/
def preimage (source : Source) : String :=
  Key.preimage source.service source.environment source.parts

def key (source : Source) : Key :=
  Key.generate source.service source.environment source.parts

/-- How many dashes each segment holds. -/
def dashes (source : Source) : List Nat :=
  source.segments.map fun segment => segment.toList.count separator

theorem key_eq_of_preimage_eq {first second : Source}
    (same : first.preimage = second.preimage) : first.key = second.key := by
  rw [key, key, Key.generate, Key.generate]
  change Key.mk (String.ofList (Digest.sha1 first.preimage.toUTF8.toList).hex) = _
  rw [same]
  rfl

/-- With a service in both sources or in neither, the segments tell the source. -/
theorem segments_inj {first second : Source}
    (presence : first.service.isSome = second.service.isSome) :
    first.segments = second.segments ↔ first = second := by
  obtain ⟨service, environment, parts⟩ := first
  obtain ⟨other, otherEnvironment, otherParts⟩ := second
  cases service <;> cases other <;> simp [segments, Key.segments] at presence ⊢

theorem length_segments {first second : Source}
    (presence : first.service.isSome = second.service.isSome)
    (length : first.parts.length = second.parts.length) :
    first.segments.length = second.segments.length := by
  obtain ⟨service, environment, parts⟩ := first
  obtain ⟨other, otherEnvironment, otherParts⟩ := second
  cases service <;> cases other <;> simp_all [segments, Key.segments]

/-- The text and the number of dashes in each segment tell the source. -/
theorem eq_iff_preimage_eq {first second : Source}
    (presence : first.service.isSome = second.service.isSome)
    (length : first.parts.length = second.parts.length) :
    first = second ↔ first.preimage = second.preimage ∧ first.dashes = second.dashes := by
  constructor
  · rintro rfl
    exact ⟨rfl, rfl⟩
  · rintro ⟨text, dashes⟩
    have joined := String.ofList_injective text
    have counts : (first.segments.map String.toList).map (List.count separator) =
        (second.segments.map String.toList).map (List.count separator) := by
      rw [List.map_map, List.map_map]
      exact dashes
    have same := intercalate_inj_of_count (by simpa using length_segments presence length)
      counts joined
    have injective : Function.Injective String.toList := fun _ _ => String.toList_injective
    exact (segments_inj presence).mp ((List.map_injective_iff.mpr injective) same)

end Source

end Key

namespace Definition

/-- What the key of an outcome is generated from. -/
def keySource (definition : Definition) (surroundings : Surroundings) (outcome : Outcome) :
    Key.Source :=
  ⟨surroundings.service.map Service.identifier, surroundings.environment.identifier,
    definition.segments outcome⟩

theorem key_eq_key_keySource {definition : Definition} {surroundings : Surroundings}
    {world : World} {cancelAfter : Option Nat} {outcome : Outcome}
    (resolves : ((definition.resolve surroundings).run world cancelAfter).result =
      .ok outcome) : outcome.common.key = (definition.keySource surroundings outcome).key := by
  obtain ⟨-, -, key, -⟩ := exists_reads_of_resolve_eq_ok resolves
  exact key

/-- Apart from pools, every part of a key is a segment. -/
theorem length_segments {definition : Definition} (ordinary : definition.kind ≠ .pdc)
    (outcome : Outcome) :
    (definition.segments outcome).length = definition.kind.keyParts.length := by
  rw [segments, List.length_flatMap]
  simp [partSegments, ordinary]

end Definition

namespace Key

/-- Two keys with as many parts, both with a service or both without, are generated from the
same source if and only if the digested texts are the same and corresponding segments hold
as many dashes.  This goes for the keys of any two outcomes of one kind other than a pool. -/
theorem source_determined :
    (∀ first second : Source, first.service.isSome = second.service.isSome →
      first.parts.length = second.parts.length →
      (first = second ↔ first.preimage = second.preimage ∧ first.dashes = second.dashes)) ∧
    ∀ (definition other : Definition) (surroundings others : Surroundings)
      (world otherWorld : World) (cancelAfter otherCancelAfter : Option Nat)
      (outcome otherOutcome : Outcome),
      definition.kind = other.kind → definition.kind ≠ .pdc →
      surroundings.service.isSome = others.service.isSome →
      ((definition.resolve surroundings).run world cancelAfter).result = .ok outcome →
      ((other.resolve others).run otherWorld otherCancelAfter).result = .ok otherOutcome →
      let first := definition.keySource surroundings outcome
      let second := other.keySource others otherOutcome
      outcome.common.key = first.key ∧ otherOutcome.common.key = second.key ∧
        (first = second ↔
          first.preimage = second.preimage ∧ first.dashes = second.dashes) := by
  refine ⟨fun first second => Source.eq_iff_preimage_eq, ?_⟩
  intro definition other surroundings others world otherWorld cancelAfter otherCancelAfter
    outcome otherOutcome kind ordinary presence resolves otherResolves first second
  refine ⟨Definition.key_eq_key_keySource resolves,
    Definition.key_eq_key_keySource otherResolves, Source.eq_iff_preimage_eq ?_ ?_⟩
  · simpa [first, second, Definition.keySource] using presence
  · rw [show first.parts.length = _ from Definition.length_segments ordinary outcome,
      show second.parts.length = _ from
        Definition.length_segments (kind ▸ ordinary) otherOutcome, kind]

def sampleGroup (connector : String) : Definition where
  details := ⟨"group", "Group", .empty, false, none⟩
  text
    | .connectorRef => some (.literal connector)
    | _ => none
  target := .elastigroup (some (.files []))

def sampleSurroundings (environment : String) : Surroundings :=
  ⟨.unnamed, ⟨environment, none, .production⟩, none, .empty⟩

/-- Groups behind different connectors in one environment are told apart by the text. -/
theorem source_determined_sampleGroup :
    let world : World := ⟨fun _ => .ok none, fun _ => .ok none⟩
    ∃ outcome other,
      (((sampleGroup "blue").resolve (sampleSurroundings "east")).run world none).result =
        .ok outcome ∧
      (((sampleGroup "pink").resolve (sampleSurroundings "east")).run world none).result =
        .ok other ∧
      ((sampleGroup "blue").keySource (sampleSurroundings "east") outcome).preimage ≠
        ((sampleGroup "pink").keySource (sampleSurroundings "east") other).preimage := by
  intro world
  refine ⟨_, _, rfl, rfl, fun same => ?_⟩
  obtain ⟨-, -, told⟩ := source_determined.2 (sampleGroup "blue") (sampleGroup "pink")
    (sampleSurroundings "east") (sampleSurroundings "east") world world none none _ _ rfl
    (by decide) rfl rfl rfl
  exact absurd (told.mpr ⟨same, by decide⟩) (by decide)

/-- A dash that moves from one segment to the next leaves the digested text, and with it the
key, as it was: two groups in different environments have one key. -/
theorem preimage_collides :
    let world : World := ⟨fun _ => .ok none, fun _ => .ok none⟩
    let first : Source := ⟨none, "east-blue", ["west"]⟩
    let second : Source := ⟨none, "east", ["blue-west"]⟩
    ∃ outcome other,
      (((sampleGroup "west").resolve (sampleSurroundings "east-blue")).run world none).result =
        .ok outcome ∧
      (((sampleGroup "blue-west").resolve (sampleSurroundings "east")).run world none).result =
        .ok other ∧
      (sampleGroup "west").keySource (sampleSurroundings "east-blue") outcome = first ∧
      (sampleGroup "blue-west").keySource (sampleSurroundings "east") other = second ∧
      first ≠ second ∧ first.preimage = second.preimage ∧
      outcome.common.key = other.common.key := by
  intro world first second
  have same : first.preimage = second.preimage := by decide
  have resolves : (((sampleGroup "west").resolve (sampleSurroundings "east-blue")).run world
    none).result = .ok _ := rfl
  have otherResolves : (((sampleGroup "blue-west").resolve (sampleSurroundings "east")).run
    world none).result = .ok _ := rfl
  refine ⟨_, _, resolves, otherResolves, rfl, rfl, by decide, same, ?_⟩
  rw [Definition.key_eq_key_keySource resolves, Definition.key_eq_key_keySource otherResolves]
  exact Source.key_eq_of_preimage_eq same

end Key

end DeployTarget
