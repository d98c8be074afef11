import DeployTarget.Proofs.Classification
import Mathlib.Data.String.Basic
import Mathlib.Data.List.Sort

/-!
# Canonical data and field values

Canonical objects have their entries in the strict order of their keys, and sorting such
entries once more changes nothing.  So a value that is read from canonical data is written
as that data, and a field that is read is read again from what it is written as.
-/

namespace DeployTarget

namespace Json

/-! ## Sorted entries -/

/-- Whether entries stand in the strict order of their keys. -/
def IsSorted (entries : List (String × Json)) : Prop :=
  entries.Pairwise fun first second => first.1 < second.1

theorem mem_insertSorted {key : String} {value : Json} {entries : List (String × Json)}
    {entry : String × Json} (member : entry ∈ insertSorted key value entries) :
    entry = (key, value) ∨ entry ∈ entries := by
  induction entries with
  | nil => exact .inl (List.mem_singleton.mp member)
  | cons first rest ih =>
      obtain ⟨other, old⟩ := first
      rw [insertSorted] at member
      split at member
      · exact List.mem_cons.mp member
      · split at member
        · exact (List.mem_cons.mp member).imp_right (List.mem_cons_of_mem _)
        · rcases List.mem_cons.mp member with rfl | later
          · exact .inr List.mem_cons_self
          · exact (ih later).imp_right (List.mem_cons_of_mem _)

theorem isSorted_insertSorted (key : String) (value : Json) {entries : List (String × Json)}
    (sorted : IsSorted entries) : IsSorted (insertSorted key value entries) := by
  induction entries with
  | nil => exact List.pairwise_singleton _ _
  | cons first rest ih =>
      obtain ⟨other, old⟩ := first
      obtain ⟨below, restSorted⟩ := List.pairwise_cons.mp sorted
      rw [insertSorted]
      split
      next before =>
        refine List.pairwise_cons.mpr ⟨fun entry member => ?_, sorted⟩
        rcases List.mem_cons.mp member with rfl | later
        · exact before
        · exact lt_trans before (below entry later)
      next notBefore =>
        split
        next same =>
          subst same
          exact List.pairwise_cons.mpr ⟨below, restSorted⟩
        next different =>
          refine List.pairwise_cons.mpr ⟨fun entry member => ?_, ih restSorted⟩
          rcases mem_insertSorted member with rfl | later
          · exact lt_of_le_of_ne (not_lt.mp notBefore) (Ne.symm different)
          · exact below entry later

theorem isSorted_sortEntries (entries : List (String × Json)) :
    IsSorted (sortEntries entries) := by
  have keeps (sorted : List (String × Json)) (isSorted : IsSorted sorted) :
      IsSorted (entries.foldl (fun sorted entry => insertSorted entry.1 entry.2 sorted)
        sorted) :=
    List.foldlRecOn entries _ isSorted fun _ isSorted entry _ =>
      isSorted_insertSorted entry.1 entry.2 isSorted
  exact keeps [] List.Pairwise.nil

/-- An entry whose key is greater than all others is written at the end. -/
theorem insertSorted_of_forall_lt {key : String} (value : Json) {entries : List (String × Json)}
    (above : ∀ entry ∈ entries, entry.1 < key) :
    insertSorted key value entries = entries ++ [(key, value)] := by
  induction entries with
  | nil => rfl
  | cons first rest ih =>
      obtain ⟨other, old⟩ := first
      have below : other < key := above _ List.mem_cons_self
      rw [insertSorted, if_neg (not_lt.mpr below.le), if_neg below.ne',
        ih fun entry member => above entry (List.mem_cons_of_mem _ member)]
      rfl

private theorem foldl_insertSorted (before entries : List (String × Json))
    (sorted : IsSorted (before ++ entries)) :
    entries.foldl (fun sorted entry => insertSorted entry.1 entry.2 sorted) before =
      before ++ entries := by
  induction entries generalizing before with
  | nil => exact (List.append_nil before).symm
  | cons entry rest ih =>
      have above : ∀ other ∈ before, other.1 < entry.1 := fun other member =>
        (List.pairwise_append.mp sorted).2.2 other member entry List.mem_cons_self
      rw [List.append_cons] at sorted ⊢
      rw [List.foldl_cons, insertSorted_of_forall_lt entry.2 above]
      exact ih _ sorted

/-- Entries that are sorted already stay as they are. -/
theorem sortEntries_of_isSorted {entries : List (String × Json)} (sorted : IsSorted entries) :
    sortEntries entries = entries :=
  foldl_insertSorted [] entries sorted

theorem IsSorted.nodup_keys {entries : List (String × Json)} (sorted : IsSorted entries) :
    (entries.map Prod.fst).Nodup :=
  List.pairwise_map.mpr (sorted.imp ne_of_lt)

/-! ## Canonical data -/

theorem canonicalItems_strings (texts : List String) :
    canonicalItems (texts.map .string) = texts.map .string := by
  induction texts with
  | nil => rfl
  | cons text rest ih => rw [List.map_cons, canonicalItems, ih, canonical]

theorem canonicalEntries_eq_map (entries : List (String × Json)) :
    canonicalEntries entries = entries.map fun entry => (entry.1, entry.2.canonical) := by
  induction entries with
  | nil => rfl
  | cons entry rest ih => rw [canonicalEntries, ih, List.map_cons]

theorem mem_of_mem_sortEntries {entries : List (String × Json)} {entry : String × Json}
    (member : entry ∈ sortEntries entries) : entry ∈ entries :=
  have among : ∀ other ∈ sortEntries entries, other ∈ entries :=
    List.foldlRecOn (motive := fun sorted => ∀ other ∈ sorted, other ∈ entries) entries _
      (fun _ none => absurd none List.not_mem_nil) fun _ written _ listed other inserted =>
        (mem_insertSorted inserted).elim (fun same => same ▸ listed) (written other)
  among entry member

mutual

/-- Canonical data is its own canonical form. -/
theorem canonical_canonical : (value : Json) → value.canonical.canonical = value.canonical
  | .null | .bool _ | .number _ | .string _ => by simp only [canonical]
  | .array items => by rw [canonical, canonical, canonicalItems_canonicalItems items]
  | .object entries => by
      have fixed : canonicalEntries (sortEntries (canonicalEntries entries)) =
          sortEntries (canonicalEntries entries) := by
        rw [canonicalEntries_eq_map (sortEntries _)]
        refine (List.map_congr_left fun entry member => ?_).trans (List.map_id _)
        rw [canonical_of_mem_canonicalEntries entries entry (mem_of_mem_sortEntries member)]
        rfl
      rw [canonical, canonical, fixed, sortEntries_of_isSorted (isSorted_sortEntries _)]

theorem canonicalItems_canonicalItems : (items : List Json) →
    canonicalItems (canonicalItems items) = canonicalItems items
  | [] => rfl
  | item :: rest => by
      rw [canonicalItems, canonicalItems, canonical_canonical item,
        canonicalItems_canonicalItems rest]

theorem canonical_of_mem_canonicalEntries : (entries : List (String × Json)) →
    ∀ entry ∈ canonicalEntries entries, entry.2.canonical = entry.2
  | [], _, member => by cases member
  | (_, value) :: rest, entry, member => by
      rw [canonicalEntries] at member
      rcases List.mem_cons.mp member with rfl | later
      · exact canonical_canonical value
      · exact canonical_of_mem_canonicalEntries rest entry later

end

/-- The entries of a canonical object are sorted. -/
theorem isSorted_of_canonical_eq {raw : Json} {entries : List (String × Json)}
    (same : raw.canonical = .object entries) : IsSorted entries := by
  cases raw with
  | object written =>
      rw [canonical] at same
      cases same
      exact isSorted_sortEntries _
  | null | bool | number | string | array =>
      rw [canonical] at same
      cases same

/-! ## Regular data -/

mutual

/-- Whether no object in a value holds a key twice. -/
def isDistinct : Json → Bool
  | .array items => areDistinct items
  | .object entries => decide (entries.map Prod.fst).Nodup && entriesAreDistinct entries
  | _ => true

def areDistinct : List Json → Bool
  | [] => true
  | item :: rest => item.isDistinct && areDistinct rest

/-- Whether no object in the values of entries holds a key twice. -/
def entriesAreDistinct : List (String × Json) → Bool
  | [] => true
  | (_, value) :: rest => value.isDistinct && entriesAreDistinct rest

end

mutual

/-- Whether a value holds no number, and no collections nested deeper than a bound. -/
def fits : Nat → Json → Bool
  | _, .number _ => false
  | 0, .array _ => false
  | bound + 1, .array items => allFit bound items
  | 0, .object _ => false
  | bound + 1, .object entries => entriesFit bound entries
  | _, _ => true

def allFit (bound : Nat) : List Json → Bool
  | [] => true
  | item :: rest => item.fits bound && allFit bound rest

def entriesFit (bound : Nat) : List (String × Json) → Bool
  | [] => true
  | (_, value) :: rest => value.fits bound && entriesFit bound rest

end

mutual

theorem fits_mono {bound deeper : Nat} (within : bound ≤ deeper) :
    (value : Json) → value.fits bound = true → value.fits deeper = true
  | .null, _ | .bool _, _ | .string _, _ => by cases deeper <;> rfl
  | .number _, fits => by cases bound <;> cases fits
  | .array items, fits => by
      cases bound with
      | zero => cases fits
      | succ bound =>
          obtain ⟨deeper, rfl⟩ :=
            Nat.exists_eq_add_of_le' (Nat.le_trans (Nat.succ_pos bound) within)
          exact allFit_mono (Nat.le_of_succ_le_succ within) items fits
  | .object entries, fits => by
      cases bound with
      | zero => cases fits
      | succ bound =>
          obtain ⟨deeper, rfl⟩ :=
            Nat.exists_eq_add_of_le' (Nat.le_trans (Nat.succ_pos bound) within)
          exact entriesFit_mono (Nat.le_of_succ_le_succ within) entries fits

theorem allFit_mono {bound deeper : Nat} (within : bound ≤ deeper) :
    (items : List Json) → allFit bound items = true → allFit deeper items = true
  | [], _ => rfl
  | item :: rest, fits => by
      obtain ⟨first, others⟩ := Bool.and_eq_true_iff.mp fits
      exact Bool.and_eq_true_iff.mpr ⟨fits_mono within item first, allFit_mono within rest others⟩

theorem entriesFit_mono {bound deeper : Nat} (within : bound ≤ deeper) :
    (entries : List (String × Json)) → entriesFit bound entries = true →
      entriesFit deeper entries = true
  | [], _ => rfl
  | (_, value) :: rest, fits => by
      obtain ⟨first, others⟩ := Bool.and_eq_true_iff.mp fits
      exact Bool.and_eq_true_iff.mpr
        ⟨fits_mono within value first, entriesFit_mono within rest others⟩

end

/-- Data without numbers and with distinct keys, nested no deeper than a bound. -/
structure IsRegular (bound : Nat) (value : Json) : Prop where
  isDistinct : value.isDistinct = true
  fits : value.fits bound = true

theorem isRegular_null (bound : Nat) : IsRegular bound .null :=
  ⟨rfl, by cases bound <;> rfl⟩

theorem isRegular_bool (bound : Nat) (value : Bool) : IsRegular bound (.bool value) :=
  ⟨rfl, by cases bound <;> rfl⟩

theorem isRegular_string (bound : Nat) (text : String) : IsRegular bound (.string text) :=
  ⟨rfl, by cases bound <;> rfl⟩

theorem isRegular_array {bound : Nat} {items : List Json}
    (regular : ∀ item ∈ items, IsRegular bound item) : IsRegular (bound + 1) (.array items) := by
  refine ⟨?_, ?_⟩
  · rw [Json.isDistinct]
    induction items with
    | nil => rfl
    | cons item rest ih =>
        rw [areDistinct, (regular item List.mem_cons_self).isDistinct,
          ih fun other member => regular other (List.mem_cons_of_mem _ member)]
        rfl
  · rw [Json.fits]
    induction items with
    | nil => rfl
    | cons item rest ih =>
        rw [allFit, (regular item List.mem_cons_self).fits,
          ih fun other member => regular other (List.mem_cons_of_mem _ member)]
        rfl

theorem entriesAreDistinct_of_forall {entries : List (String × Json)}
    (distinct : ∀ entry ∈ entries, entry.2.isDistinct = true) :
    entriesAreDistinct entries = true := by
  induction entries with
  | nil => rfl
  | cons entry rest ih =>
      rw [entriesAreDistinct, distinct entry List.mem_cons_self,
        ih fun other member => distinct other (List.mem_cons_of_mem _ member)]
      rfl

theorem entriesFit_of_forall {bound : Nat} {entries : List (String × Json)}
    (fit : ∀ entry ∈ entries, entry.2.fits bound = true) : entriesFit bound entries = true := by
  induction entries with
  | nil => rfl
  | cons entry rest ih =>
      rw [entriesFit, fit entry List.mem_cons_self,
        ih fun other member => fit other (List.mem_cons_of_mem _ member)]
      rfl

theorem isRegular_object {bound : Nat} {entries : List (String × Json)}
    (distinct : (entries.map Prod.fst).Nodup)
    (regular : ∀ entry ∈ entries, IsRegular bound entry.2) :
    IsRegular (bound + 1) (.object entries) := by
  refine ⟨?_, ?_⟩
  · rw [Json.isDistinct, decide_eq_true distinct, Bool.true_and]
    exact entriesAreDistinct_of_forall fun entry member => (regular entry member).isDistinct
  · rw [Json.fits]
    exact entriesFit_of_forall fun entry member => (regular entry member).fits

theorem isRegular_strings (bound : Nat) (texts : List String) :
    IsRegular (bound + 1) (strings texts) := by
  refine isRegular_array fun item member => ?_
  obtain ⟨text, -, rfl⟩ := List.mem_map.mp member
  exact isRegular_string bound text

theorem isRegular_ofPairs (bound : Nat) {pairs : List (String × String)}
    (distinct : (pairs.map Prod.fst).Nodup) : IsRegular (bound + 1) (ofPairs pairs) := by
  refine isRegular_object (by simpa [Function.comp_def] using distinct) fun entry member => ?_
  obtain ⟨pair, -, rfl⟩ := List.mem_map.mp member
  exact isRegular_string bound pair.2

end Json

namespace OrderedMap

variable {κ α : Type} [DecidableEq κ]

theorem upsert_of_not_mem {key : κ} (value : α) {entries : List (κ × α)}
    (new : key ∉ entries.map Prod.fst) : upsert key value entries = entries ++ [(key, value)] := by
  induction entries with
  | nil => rfl
  | cons entry rest ih =>
      obtain ⟨first, old⟩ := entry
      simp only [List.map_cons, List.mem_cons, not_or] at new
      rw [upsert, if_neg (Ne.symm new.1), ih new.2]
      rfl

private theorem entries_insertAll (map : OrderedMap κ α) (pairs : List (κ × α))
    (distinct : ((map.entries ++ pairs).map Prod.fst).Nodup) :
    (map.insertAll pairs).entries = map.entries ++ pairs := by
  induction pairs generalizing map with
  | nil => exact (List.append_nil _).symm
  | cons pair rest ih =>
      have new : pair.1 ∉ map.entries.map Prod.fst := by
        simp only [List.map_append, List.map_cons, List.nodup_append, List.mem_cons] at distinct
        exact fun member => distinct.2.2 _ member _ (.inl rfl) rfl
      have written : (map.insert pair.1 pair.2).entries = map.entries ++ [pair] :=
        upsert_of_not_mem pair.2 new
      rw [List.append_cons, ← written] at distinct ⊢
      exact ih _ distinct

/-- Pairs with distinct keys are the entries of the map that is made of them. -/
theorem entries_ofList {pairs : List (κ × α)} (distinct : (pairs.map Prod.fst).Nodup) :
    (ofList pairs).entries = pairs :=
  entries_insertAll empty pairs distinct

omit [DecidableEq κ] in
theorem ext_entries {first second : OrderedMap κ α} (same : first.entries = second.entries) :
    first = second := by
  cases first
  cases second
  cases same
  rfl

theorem ofList_entries (map : OrderedMap κ α) : ofList map.entries = map :=
  ext_entries (entries_ofList map.distinct)

end OrderedMap

/-! ## Values that are read -/

theorem readTexts_eq_ok {items : List Json} {texts : List String}
    (read : items.mapM readText = .ok texts) : items = texts.map .string := by
  induction items generalizing texts with
  | nil =>
      cases read
      rfl
  | cons item rest ih =>
      rw [List.mapM_cons] at read
      cases item with
      | string text =>
          cases others : rest.mapM readText with
          | error mismatch =>
              rw [others] at read
              cases read
          | ok found =>
              rw [others] at read
              cases read
              rw [ih others]
              rfl
      | null | bool | number | array | object => cases read

theorem readTags_eq_ok {entries : List (String × Json)} {pairs : List (String × String)}
    (read : (entries.mapM fun entry => do
      let text ← readText entry.2
      return (entry.1, text)) = Except.ok pairs) :
    entries = pairs.map fun pair => (pair.1, .string pair.2) := by
  induction entries generalizing pairs with
  | nil =>
      cases read
      rfl
  | cons entry rest ih =>
      obtain ⟨key, value⟩ := entry
      rw [List.mapM_cons] at read
      cases value with
      | string text =>
          cases others : rest.mapM fun entry => do
              let text ← readText entry.2
              return (entry.1, text) with
          | error mismatch =>
              rw [others] at read
              cases read
          | ok found =>
              rw [others] at read
              cases read
              rw [ih others]
              rfl
      | null | bool | number | array | object => cases read

/-- A type of field values whose values are written as the data that they are read from. -/
class FieldValue.Lawful (α : Type) [FieldValue α] : Prop where
  toJson_eq : ∀ {raw : Json} {value : α}, FieldValue.ofJson raw.canonical = .ok value →
    FieldValue.toJson value = raw.canonical
  toJson_ne_null : ∀ value : α, FieldValue.toJson value ≠ .null
  isRegular_toJson : ∀ (bound : Nat) (value : α),
    (FieldValue.toJson value).IsRegular (bound + 1)

namespace FieldValue

open Json

theorem Lawful.canonical_toJson {α : Type} [FieldValue α] [Lawful α] {raw : Json} {value : α}
    (read : ofJson raw.canonical = .ok value) : (toJson value).canonical = raw.canonical := by
  rw [Lawful.toJson_eq read, canonical_canonical]

instance : Lawful String where
  toJson_eq {raw value} read := by
    cases written : raw.canonical with
    | string text =>
        rw [written] at read
        cases read
        rfl
    | null | bool | number | array | object =>
        rw [written] at read
        cases read
  toJson_ne_null _ := Json.noConfusion
  isRegular_toJson bound := isRegular_string (bound + 1)

instance : Lawful Bool where
  toJson_eq {raw value} read := by
    cases written : raw.canonical with
    | bool flag =>
        rw [written] at read
        cases read
        rfl
    | null | number | string | array | object =>
        rw [written] at read
        cases read
  toJson_ne_null _ := Json.noConfusion
  isRegular_toJson bound := isRegular_bool (bound + 1)

instance : Lawful (List String) where
  toJson_eq {raw value} read := by
    cases written : raw.canonical with
    | array items =>
        rw [written] at read
        rw [readTexts_eq_ok read]
        rfl
    | null | bool | number | string | object =>
        rw [written] at read
        cases read
  toJson_ne_null _ := Json.noConfusion
  isRegular_toJson := isRegular_strings

instance : Lawful HostList where
  toJson_eq {raw value} read := by
    cases written : raw.canonical with
    | string text =>
        rw [written] at read
        cases read
        rfl
    | array items =>
        rw [written] at read
        cases texts : items.mapM readText with
        | error mismatch =>
            simp only [ofJson, texts] at read
            cases read
        | ok found =>
            simp only [ofJson, texts] at read
            cases read
            rw [readTexts_eq_ok texts]
            rfl
    | null | bool | number | object =>
        rw [written] at read
        cases read
  toJson_ne_null hosts := by
    cases hosts <;> exact Json.noConfusion
  isRegular_toJson
    | bound, .joined text => isRegular_string (bound + 1) text
    | bound, .listed texts => isRegular_strings bound texts

instance : Lawful Tags where
  toJson_eq {raw value} read := by
    cases written : raw.canonical with
    | object entries =>
        rw [written] at read
        have sorted := isSorted_of_canonical_eq written
        cases pairs : entries.mapM fun entry => do
            let text ← readText entry.2
            return (entry.1, text) with
        | error mismatch =>
            simp only [ofJson, readTags, pairs] at read
            cases read
        | ok found =>
            simp only [ofJson, readTags, pairs] at read
            cases read
            have same := readTags_eq_ok pairs
            have distinct : (found.map Prod.fst).Nodup := by
              have keys := sorted.nodup_keys
              rw [same] at keys
              simpa [Function.comp_def] using keys
            rw [same]
            exact congrArg Json.ofPairs (OrderedMap.entries_ofList distinct)
    | null | bool | number | string | array =>
        rw [written] at read
        cases read
  toJson_ne_null _ := Json.noConfusion
  isRegular_toJson bound tags := isRegular_ofPairs bound tags.distinct

end FieldValue

/-! ## Fields that are read -/

namespace Field

variable {α : Type} [FieldValue α]

/-- A field that is read from what it is written as. -/
def IsLegible (field : Field α) : Prop :=
  ofJson field.toJson.canonical = .ok field

/-- A field that is read from canonical data is legible. -/
theorem isLegible_of_ofJson [FieldValue.Lawful α] {raw : Json} {field : Field α}
    (read : ofJson raw.canonical = .ok field) : field.IsLegible := by
  cases ofJson_eq_ok_iff.mp read with
  | pending => rfl
  | expression _ noInput holds => exact ofJson_eq_ok_iff.mpr (.expression rfl noInput holds)
  | literal _ fits => rw [IsLegible, toJson, FieldValue.Lawful.canonical_toJson fits, read]

theorem toJson_ne_null [FieldValue.Lawful α] (field : Field α) : field.toJson ≠ .null := by
  cases field with
  | literal value | resolved _ value => exact FieldValue.Lawful.toJson_ne_null value
  | pending | expression => exact Json.noConfusion

theorem isRegular_toJson [FieldValue.Lawful α] (bound : Nat) (field : Field α) :
    field.toJson.IsRegular (bound + 1) := by
  cases field with
  | literal value | resolved _ value => exact FieldValue.Lawful.isRegular_toJson bound value
  | pending | expression => exact Json.isRegular_string _ _

theorem isRegular_optionToJson [FieldValue.Lawful α] (bound : Nat) (field : Option (Field α)) :
    (optionToJson field).IsRegular (bound + 1) := by
  cases field with
  | none => exact Json.isRegular_null _
  | some field => exact field.isRegular_toJson bound

end Field

end DeployTarget
