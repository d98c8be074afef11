import DeployTarget.Proofs.PathSteps
import DeployTarget.Proofs.Reads

/-!
# Addresses of values

Every location of the outputs of a provisioner has an address, the reference whose path is the
location as it is written.  Looking an address up gives the value that stands at its location if
there is one and it is not null, and no value if a step of the location goes astray or the last
one leads to null.
-/

namespace DeployTarget

namespace Json

/-! ## Locations -/

/-- Says that a value stands at a location of a document. -/
inductive Located : Json → List Step → Json → Prop where
  | here (value : Json) : Located value [] value
  | entry {entries : List (String × Json)} {name : String} {item value : Json}
      {rest : List Step} (found : entries.lookup name = some item)
      (behind : Located item rest value) : Located (.object entries) (.key name :: rest) value
  | item {items : List Json} {index : Nat} {item value : Json} {rest : List Step}
      (found : items[index]? = some item) (behind : Located item rest value) :
      Located (.array items) (.position index :: rest) value

/-- Says that a location leads to null in a document, or that one of its steps leads nowhere: to
a key or a position that is not there, or to one of a value that has none. -/
inductive Astray : Json → List Step → Prop where
  | null : Astray .null []
  | missing {entries : List (String × Json)} {name : String} {rest : List Step}
      (absent : entries.lookup name = none) : Astray (.object entries) (.key name :: rest)
  | beyond {items : List Json} {index : Nat} {rest : List Step} (short : items.length ≤ index) :
      Astray (.array items) (.position index :: rest)
  | keyOfOther {value : Json} {name : String} {rest : List Step}
      (other : ∀ entries, value ≠ .object entries) : Astray value (.key name :: rest)
  | positionOfOther {value : Json} {index : Nat} {rest : List Step}
      (other : ∀ items, value ≠ .array items) : Astray value (.position index :: rest)
  | entry {entries : List (String × Json)} {name : String} {item : Json} {rest : List Step}
      (found : entries.lookup name = some item) (behind : Astray item rest) :
      Astray (.object entries) (.key name :: rest)
  | item {items : List Json} {index : Nat} {item : Json} {rest : List Step}
      (found : items[index]? = some item) (behind : Astray item rest) :
      Astray (.array items) (.position index :: rest)

/-- Whether the lists of a document have no more items than there are positions. -/
def IsIndexable (document : Json) : Prop :=
  ∀ location items, Located document location (.array items) →
    items.length ≤ largestPosition + 1

theorem walk?_cons (document : Json) (step : Step) (rest : List Step) :
    document.walk? (step :: rest) = (document.step? step).bind (·.walk? rest) :=
  rfl

/-- A walk finds what stands at a location. -/
theorem walk?_eq_some_iff {document value : Json} {location : List Step} :
    document.walk? location = some value ↔ Located document location value := by
  constructor
  · intro found
    induction location generalizing document with
    | nil =>
        cases found
        exact .here _
    | cons step rest ih =>
        obtain ⟨item, stepped, behind⟩ := Option.bind_eq_some_iff.mp found
        cases step with
        | key name =>
            cases document with
            | object entries => exact .entry stepped (ih behind)
            | _ => cases stepped
        | position index =>
            cases document with
            | array items => exact .item stepped (ih behind)
            | _ => cases stepped
  · intro located
    induction located with
    | here value => rfl
    | entry found _ ih => rwa [walk?_cons, step?, get?, found]
    | item found _ ih => rwa [walk?_cons, step?, item?, found]

/-- A location goes astray if and only if a walk finds nothing there but null. -/
theorem astray_iff {document : Json} {location : List Step} :
    Astray document location ↔ ∀ value, document.walk? location = some value →
      value.isNull = true := by
  constructor
  · intro astray value found
    induction astray with
    | null =>
        cases found
        rfl
    | missing absent => simp [walk?_cons, step?, get?, absent] at found
    | beyond short => simp [walk?_cons, step?, item?, short] at found
    | @keyOfOther document _ _ other =>
        cases document with
        | object entries => exact absurd rfl (other entries)
        | _ => simp [walk?_cons, step?, get?] at found
    | @positionOfOther document _ _ other =>
        cases document with
        | array items => exact absurd rfl (other items)
        | _ => simp [walk?_cons, step?, item?] at found
    | entry stepped _ ih => exact ih (by simpa [walk?_cons, step?, get?, stepped] using found)
    | item stepped _ ih => exact ih (by simpa [walk?_cons, step?, item?, stepped] using found)
  · intro nothing
    induction location generalizing document with
    | nil =>
        have null := nothing document rfl
        cases document with
        | null => exact .null
        | _ => cases null
    | cons step rest ih =>
        cases step with
        | key name =>
            cases document with
            | object entries =>
                cases found : entries.lookup name with
                | none => exact .missing found
                | some item =>
                    refine .entry found (ih fun value behind => nothing value ?_)
                    rwa [walk?_cons, step?, get?, found]
            | _ => exact .keyOfOther (by simp)
        | position index =>
            cases document with
            | array items =>
                cases found : items[index]? with
                | none => exact .beyond (List.getElem?_eq_none_iff.mp found)
                | some item =>
                    refine .item found (ih fun value behind => nothing value ?_)
                    rwa [walk?_cons, step?, item?, found]
            | _ => exact .positionOfOther (by simp)

/-! ## Documents in memory -/

theorem isIndexable_array {items : List Json} (short : items.length ≤ largestPosition + 1)
    (all : ∀ item ∈ items, item.IsIndexable) : (Json.array items).IsIndexable := by
  intro location others located
  cases located with
  | here => exact short
  | item found behind => exact all _ (List.mem_of_getElem? found) _ _ behind

theorem isIndexable_object {entries : List (String × Json)}
    (all : ∀ entry ∈ entries, entry.2.IsIndexable) : (Json.object entries).IsIndexable := by
  intro location items located
  cases located with
  | entry found behind =>
      obtain ⟨before, after, rfl, -⟩ := List.lookup_eq_some_iff.mp found
      exact all _ (List.mem_append_right before List.mem_cons_self) _ _ behind

theorem isIndexable_scalar {document : Json} (noList : ∀ items, document ≠ .array items)
    (noObject : ∀ entries, document ≠ .object entries) : document.IsIndexable := by
  intro location items located
  cases located with
  | here => exact absurd rfl (noList items)
  | entry => exact absurd rfl (noObject _)
  | item => exact absurd rfl (noList _)

/-- The positions on the way to a value are positions that a list can have. -/
theorem mapM_read?_of_located {document value : Json} {location : List Step}
    (indexable : document.IsIndexable) (located : Located document location value) :
    location.mapM Step.read? = some location := by
  induction located with
  | here value => rfl
  | entry found _ ih =>
      have behind := ih fun location items located => indexable _ items (.entry found located)
      rw [List.mapM_cons, behind]
      rfl
  | @item items index item value rest found _ ih =>
      have behind := ih fun location items located => indexable _ items (.item found located)
      have inside : index < items.length := (List.getElem?_eq_some_iff.mp found).1
      have short := indexable [] items (.here _)
      have readable : (Step.position index).read? = some (.position index) :=
        if_pos (by omega)
      rw [List.mapM_cons, behind, readable]
      rfl

theorem mapM_read?_eq_some {location steps : List Step}
    (read : location.mapM Step.read? = some steps) : steps = location := by
  have kept (step result : Step) (readStep : step.read? = some result) : step = result := by
    cases step with
    | key name =>
        cases readStep
        rfl
    | position index =>
        rw [Step.read?] at readStep
        split at readStep
        · cases readStep
          rfl
        · cases readStep
  have same : List.Forall₂ (· = ·) location steps := (mapM_eq_some_iff.mp read).imp kept
  rw [List.forall₂_eq_eq_eq] at same
  exact same.symm

/-- The path of a location finds what a walk to the location finds. -/
theorem find?_writtenPath {document : Json} (indexable : document.IsIndexable)
    {location : List Step} (plain : ∀ key, .key key ∈ location → IsPlainKey key) :
    document.find? (String.ofList (writtenPath location)) = document.walk? location := by
  rw [find?, String.toList_ofList, pathSteps?_writtenPath plain]
  cases read : location.mapM Step.read? with
  | some steps => rw [mapM_read?_eq_some read, Option.bind_eq_bind, Option.bind_some]
  | none =>
      cases found : document.walk? location with
      | none => rfl
      | some value =>
          rw [mapM_read?_of_located indexable (walk?_eq_some_iff.mp found)] at read
          cases read

end Json

namespace Outputs

open Json

/-! ## Addresses -/

/-- The address of a location: the reference whose path is the location as it is written. -/
def address (location : List Step) : String :=
  alone (root.toList ++ '.' :: writtenPath location)

/-- Behind the name of the outputs stand the texts of the steps, and a dot where the first of
them brings none. -/
theorem exists_front (location : List Step) :
    ∃ front, (front = root.toList ∨ front = root.toList ++ ['.']) ∧
      root.toList ++ '.' :: writtenPath location = front ++ location.flatMap Step.text := by
  cases location with
  | nil => exact ⟨_, .inr rfl, by simp [writtenPath]⟩
  | cons step rest =>
      cases step with
      | key key => exact ⟨_, .inl rfl, by simp [writtenPath, Step.text]⟩
      | position index => exact ⟨_, .inr rfl, by simp [writtenPath]⟩

theorem exists_getLast?_text {step : Step} (plain : ∀ key, step = .key key → IsPlainKey key) :
    ∃ c, step.text.getLast? = some c ∧ Text.isBlank c = false := by
  cases step with
  | position index =>
      refine ⟨']', ?_, by decide⟩
      rw [Step.text, bracket, ← List.cons_append, List.getLast?_append]
      rfl
  | key key =>
      have isPlain := plain key rfl
      have trimmed : Text.trimmed key.toList = key.toList := by
        rw [← Text.toList_trim, isPlain.trimmed]
      have nonempty : key.toList ≠ [] := by simpa using isPlain.nonempty
      have last := List.getLast?_eq_some_getLast nonempty
      refine ⟨_, ?_, (Text.trimmed_eq_self_iff.mp trimmed).2 _ last⟩
      rw [Step.text, List.getLast?_cons_of_ne_nil nonempty, last]

/-- Behind a text that does not end with a blank, the texts of steps do not end with one. -/
theorem isBlank_getLast?_texts {location : List Step}
    (plain : ∀ key, .key key ∈ location → IsPlainKey key) {front : List Char}
    (ends : ∀ c, front.getLast? = some c → Text.isBlank c = false) :
    ∀ c, (front ++ location.flatMap Step.text).getLast? = some c → Text.isBlank c = false := by
  induction location generalizing front with
  | nil => simpa using ends
  | cons step rest ih =>
      obtain ⟨last, isLast, notBlank⟩ :=
        exists_getLast?_text fun key same => plain key (same ▸ List.mem_cons_self)
      rw [List.flatMap_cons, ← List.append_assoc]
      refine ih (fun key member => plain key (List.mem_cons_of_mem _ member)) fun c found => ?_
      rw [List.getLast?_append, isLast, Option.some_or] at found
      cases found
      exact notBlank

theorem not_mem_texts {location : List Step}
    (plain : ∀ key, .key key ∈ location → IsPlainKey key) {c : Char} (angle : c = '<' ∨ c = '>') :
    c ∉ location.flatMap Step.text := by
  intro member
  obtain ⟨step, stepMember, member⟩ := List.mem_flatMap.mp member
  cases step with
  | key key =>
      obtain ⟨noOpening, noClosing⟩ := (plain key stepMember).noAngle
      rcases angle with rfl | rfl
      · simp [Step.text, noOpening] at member
      · simp [Step.text, noClosing] at member
  | position index =>
      rcases angle with rfl | rfl
      · exact not_mem_bracket (by decide) (by decide) index member
      · exact not_mem_bracket (by decide) (by decide) index member

/-- A reference to a path, without blanks around it, has the value at the path; null is none. -/
theorem reference?_path (outputs : Outputs) {path : List Char}
    (trimmed : Text.trimmed (root.toList ++ '.' :: path) = root.toList ++ '.' :: path) :
    outputs.reference? (root.toList ++ '.' :: path) =
      (outputs.document.find? (String.ofList path)).filter (!·.isNull) := by
  have behind : root.toList.isPrefixOf? (root.toList ++ '.' :: path) = some ('.' :: path) :=
    List.isPrefixOf?_eq_some_iff_append_eq.mpr rfl
  rw [reference?, trimmed, behind, Option.bind_eq_bind, Option.bind_some]
  change ((outputs.document.find? (String.ofList path)).bind fun value =>
    if value.isNull then none else some value) = _
  cases outputs.document.find? (String.ofList path) with
  | none => rfl
  | some value => cases null : value.isNull <;> simp [Option.filter, null]

/-- The address of a location has the value that a walk to the location finds; null is none. -/
theorem lookup_address_eq (outputs : Outputs) {location : List Step}
    (plain : ∀ key, .key key ∈ location → IsPlainKey key)
    (indexable : outputs.document.IsIndexable) :
    outputs.lookup (address location) =
      .ok ((outputs.document.walk? location).filter (!·.isNull)) := by
  obtain ⟨front, isFront, texts⟩ := exists_front location
  have noAngle {c : Char} (angle : c = '<' ∨ c = '>') :
      c ∉ root.toList ++ '.' :: writtenPath location := by
    rw [texts, List.mem_append, not_or]
    refine ⟨?_, not_mem_texts plain angle⟩
    rcases isFront with rfl | rfl <;> rcases angle with rfl | rfl <;> decide
  have trimmed : Text.trimmed (root.toList ++ '.' :: writtenPath location) =
      root.toList ++ '.' :: writtenPath location := by
    refine Text.trimmed_eq_self_iff.mpr ⟨?_, ?_⟩
    · rintro c ⟨⟩
      decide
    · rw [texts]
      refine isBlank_getLast?_texts plain ?_
      rcases isFront with rfl | rfl <;> rintro c ⟨⟩ <;> decide
  have whole := (isWhole_alone_iff (noAngle (.inr rfl))).mpr ⟨rfl, noAngle (.inl rfl)⟩
  rw [address, lookup_whole outputs whole, reference?_path outputs trimmed,
    find?_writtenPath indexable plain]

/-- Looking up the address of a location gives the value that stands there, unless it is null, and
no value if and only if the location goes astray. -/
theorem lookup_address (outputs : Outputs) (indexable : outputs.document.IsIndexable)
    (location : List Step) (plain : ∀ key, .key key ∈ location → IsPlainKey key) :
    (∀ value, outputs.lookup (address location) = .ok (some value) ↔
      Located outputs.document location value ∧ value.isNull = false) ∧
    (outputs.lookup (address location) = .ok none ↔ Astray outputs.document location) := by
  rw [lookup_address_eq outputs plain indexable]
  constructor
  · intro value
    rw [Except.ok.injEq, Option.filter_eq_some_iff, walk?_eq_some_iff, Bool.not_eq_true']
  · rw [Except.ok.injEq, Option.filter_eq_none_iff, astray_iff]
    simp

/-- Outputs with lists in lists and with keys that hold blanks and a closing bracket. -/
def nestedOutputs : Outputs where
  document := .object [("hosts ]", .array [.array [.null, .object [("a b", .string "x")]]])]

theorem lookup_address_nestedOutputs :
    nestedOutputs.document.IsIndexable ∧
      address [.key "hosts ]", .position 0, .position 1, .key "a b"] =
        "<+provisioner.hosts ][0][1].a b>" ∧
      nestedOutputs.lookup (address [.key "hosts ]", .position 0, .position 1, .key "a b"]) =
        .ok (some (.string "x")) ∧
      nestedOutputs.lookup (address [.key "hosts ]", .position 0, .position 0]) = .ok none := by
  have inner : (Json.object [("a b", .string "x")]).IsIndexable :=
    isIndexable_object (by simpa using isIndexable_scalar (by simp) (by simp))
  have pair : (Json.array [.null, .object [("a b", .string "x")]]).IsIndexable :=
    isIndexable_array (by decide) (by simpa using ⟨isIndexable_scalar (by simp) (by simp), inner⟩)
  have indexable : nestedOutputs.document.IsIndexable :=
    isIndexable_object (by simpa using isIndexable_array (by decide) (by simpa using pair))
  have plainHosts : IsPlainKey "hosts ]" :=
    ⟨by decide, by decide, by decide, by decide, by decide⟩
  have plainName : IsPlainKey "a b" := ⟨by decide, by decide, by decide, by decide, by decide⟩
  have plain (rest : List Step) (others : ∀ key, .key key ∈ rest → key = "a b") :
      ∀ key, .key key ∈ .key "hosts ]" :: rest → IsPlainKey key := by
    intro key member
    rcases List.mem_cons.mp member with same | later
    · cases same
      exact plainHosts
    · rw [others key later]
      exact plainName
  have atName := nestedOutputs.lookup_address indexable _
    (plain [.position 0, .position 1, .key "a b"] (by simp))
  have atNull := nestedOutputs.lookup_address indexable _
    (plain [.position 0, .position 0] (by simp))
  exact ⟨indexable, rfl, (atName.1 _).mpr ⟨.entry rfl (.item rfl (.item rfl (.entry rfl (.here _)))),
    rfl⟩, atNull.2.mpr (.entry rfl (.item rfl (.item rfl .null)))⟩

end Outputs

end DeployTarget
