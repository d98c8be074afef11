import DeployTarget.Proofs.Canonical

/-!
# The texts of plain data

Plain data holds texts as values and as keys.  A test of them can be made in parts, and a change
of the texts that are values keeps the shape of the data and all of its keys.
-/

namespace DeployTarget.Json

/-! ## Tests -/

section

variable (text key : String → Bool)

mutual

/-- Whether the texts in a value pass one test, and the keys of its objects another. -/
def everyText : Json → Bool
  | .string value => text value
  | .array items => everyTextOfItems items
  | .object entries => everyTextOfEntries entries
  | _ => true

def everyTextOfItems : List Json → Bool
  | [] => true
  | item :: rest => item.everyText && everyTextOfItems rest

def everyTextOfEntries : List (String × Json) → Bool
  | [] => true
  | (name, value) :: rest => key name && value.everyText && everyTextOfEntries rest

end

end

section

variable (text text' key key' : String → Bool)

mutual

theorem everyText_and : (value : Json) →
    value.everyText (fun name => text name && text' name) (fun name => key name && key' name) =
      (value.everyText text key && value.everyText text' key')
  | .null | .bool _ | .number _ | .string _ => rfl
  | .array items => everyTextOfItems_and items
  | .object entries => everyTextOfEntries_and entries

theorem everyTextOfItems_and : (items : List Json) →
    everyTextOfItems (fun name => text name && text' name) (fun name => key name && key' name)
        items =
      (everyTextOfItems text key items && everyTextOfItems text' key' items)
  | [] => rfl
  | item :: rest => by
      rw [everyTextOfItems, everyText_and item, everyTextOfItems_and rest, everyTextOfItems,
        everyTextOfItems]
      simp only [Bool.and_assoc, Bool.and_left_comm]

theorem everyTextOfEntries_and : (entries : List (String × Json)) →
    everyTextOfEntries (fun name => text name && text' name) (fun name => key name && key' name)
        entries =
      (everyTextOfEntries text key entries && everyTextOfEntries text' key' entries)
  | [] => rfl
  | (name, value) :: rest => by
      rw [everyTextOfEntries, everyText_and value, everyTextOfEntries_and rest, everyTextOfEntries,
        everyTextOfEntries]
      simp only [Bool.and_assoc, Bool.and_left_comm]

end

end

/-! ## Changes -/

section

variable (change : String → String)

mutual

/-- The value with its texts changed, and its keys as they are. -/
def mapTexts : Json → Json
  | .string value => .string (change value)
  | .array items => .array (mapTextsOfItems items)
  | .object entries => .object (mapTextsOfEntries entries)
  | value => value

def mapTextsOfItems : List Json → List Json
  | [] => []
  | item :: rest => item.mapTexts :: mapTextsOfItems rest

def mapTextsOfEntries : List (String × Json) → List (String × Json)
  | [] => []
  | (name, value) :: rest => (name, value.mapTexts) :: mapTextsOfEntries rest

end

theorem mapTextsOfItems_eq_map (items : List Json) :
    mapTextsOfItems change items = items.map (mapTexts change) := by
  induction items with
  | nil => rfl
  | cons item rest ih => rw [mapTextsOfItems, ih, List.map_cons]

theorem mapTextsOfEntries_eq_map (entries : List (String × Json)) :
    mapTextsOfEntries change entries =
      entries.map fun entry => (entry.1, entry.2.mapTexts change) := by
  induction entries with
  | nil => rfl
  | cons entry rest ih => rw [mapTextsOfEntries, ih, List.map_cons]

theorem map_fst_mapTextsOfEntries (entries : List (String × Json)) :
    (mapTextsOfEntries change entries).map Prod.fst = entries.map Prod.fst := by
  rw [mapTextsOfEntries_eq_map, List.map_map]
  rfl

mutual

theorem isDistinct_mapTexts : (value : Json) → (value.mapTexts change).isDistinct = value.isDistinct
  | .null | .bool _ | .number _ | .string _ => rfl
  | .array items => areDistinct_mapTextsOfItems items
  | .object entries => by
      rw [mapTexts, isDistinct, isDistinct, map_fst_mapTextsOfEntries,
        entriesAreDistinct_mapTextsOfEntries entries]

theorem areDistinct_mapTextsOfItems : (items : List Json) →
    areDistinct (mapTextsOfItems change items) = areDistinct items
  | [] => rfl
  | item :: rest => by
      rw [mapTextsOfItems, areDistinct, isDistinct_mapTexts item,
        areDistinct_mapTextsOfItems rest, areDistinct]

theorem entriesAreDistinct_mapTextsOfEntries : (entries : List (String × Json)) →
    entriesAreDistinct (mapTextsOfEntries change entries) = entriesAreDistinct entries
  | [] => rfl
  | (_, value) :: rest => by
      rw [mapTextsOfEntries, entriesAreDistinct, isDistinct_mapTexts value,
        entriesAreDistinct_mapTextsOfEntries rest, entriesAreDistinct]

end

/-- Entries are sorted by their keys, which no change of texts changes. -/
theorem insertSorted_mapTextsOfEntries (key : String) (value : Json)
    (entries : List (String × Json)) :
    insertSorted key (value.mapTexts change) (mapTextsOfEntries change entries) =
      mapTextsOfEntries change (insertSorted key value entries) := by
  induction entries with
  | nil => rfl
  | cons entry rest ih =>
      obtain ⟨other, old⟩ := entry
      rw [mapTextsOfEntries, insertSorted, insertSorted]
      split_ifs with before same
      · rfl
      · rfl
      · rw [ih, mapTextsOfEntries]

theorem sortEntries_mapTextsOfEntries (entries : List (String × Json)) :
    sortEntries (mapTextsOfEntries change entries) =
      mapTextsOfEntries change (sortEntries entries) := by
  have keeps (sorted : List (String × Json)) :
      (mapTextsOfEntries change entries).foldl
          (fun sorted entry => insertSorted entry.1 entry.2 sorted)
          (mapTextsOfEntries change sorted) =
        mapTextsOfEntries change
          (entries.foldl (fun sorted entry => insertSorted entry.1 entry.2 sorted) sorted) := by
    induction entries generalizing sorted with
    | nil => rfl
    | cons entry rest ih =>
        rw [mapTextsOfEntries, List.foldl_cons, insertSorted_mapTextsOfEntries, ih, List.foldl_cons]
  exact keeps []

mutual

/-- The canonical form of changed data is that of the data, changed. -/
theorem canonical_mapTexts : (value : Json) →
    (value.mapTexts change).canonical = value.canonical.mapTexts change
  | .null | .bool _ | .number _ | .string _ => by simp only [mapTexts, canonical]
  | .array items => by
      rw [mapTexts, canonical, canonical, mapTexts, canonicalItems_mapTextsOfItems items]
  | .object entries => by
      rw [mapTexts, canonical, canonical, mapTexts, canonicalEntries_mapTextsOfEntries entries,
        sortEntries_mapTextsOfEntries]

theorem canonicalItems_mapTextsOfItems : (items : List Json) →
    canonicalItems (mapTextsOfItems change items) =
      mapTextsOfItems change (canonicalItems items)
  | [] => rfl
  | item :: rest => by
      rw [mapTextsOfItems, canonicalItems, canonicalItems, mapTextsOfItems,
        canonical_mapTexts item, canonicalItems_mapTextsOfItems rest]

theorem canonicalEntries_mapTextsOfEntries : (entries : List (String × Json)) →
    canonicalEntries (mapTextsOfEntries change entries) =
      mapTextsOfEntries change (canonicalEntries entries)
  | [] => rfl
  | (_, value) :: rest => by
      rw [mapTextsOfEntries, canonicalEntries, canonicalEntries, mapTextsOfEntries,
        canonical_mapTexts value, canonicalEntries_mapTextsOfEntries rest]

end

mutual

theorem fits_mapTexts : (bound : Nat) → (value : Json) →
    (value.mapTexts change).fits bound = value.fits bound
  | bound, .null | bound, .bool _ | bound, .number _ | bound, .string _ => by cases bound <;> rfl
  | 0, .array _ | 0, .object _ => rfl
  | bound + 1, .array items => allFit_mapTextsOfItems bound items
  | bound + 1, .object entries => entriesFit_mapTextsOfEntries bound entries

theorem allFit_mapTextsOfItems : (bound : Nat) → (items : List Json) →
    allFit bound (mapTextsOfItems change items) = allFit bound items
  | _, [] => rfl
  | bound, item :: rest => by
      rw [mapTextsOfItems, allFit, fits_mapTexts bound item, allFit_mapTextsOfItems bound rest,
        allFit]

theorem entriesFit_mapTextsOfEntries : (bound : Nat) → (entries : List (String × Json)) →
    entriesFit bound (mapTextsOfEntries change entries) = entriesFit bound entries
  | _, [] => rfl
  | bound, (_, value) :: rest => by
      rw [mapTextsOfEntries, entriesFit, fits_mapTexts bound value,
        entriesFit_mapTextsOfEntries bound rest, entriesFit]

end

end

section

variable {change : String → String} {keeps : String → Bool}

mutual

/-- A change of texts changes nothing if and only if every text is kept. -/
theorem mapTexts_eq_self_iff (kept : ∀ text, change text = text ↔ keeps text = true) :
    (value : Json) →
      (value.mapTexts change = value ↔ value.everyText keeps (fun _ => true) = true)
  | .null | .bool _ | .number _ => by simp [mapTexts, everyText]
  | .string text => by rw [mapTexts, everyText, Json.string.injEq, kept]
  | .array items => by
      rw [mapTexts, everyText, Json.array.injEq, mapTextsOfItems_eq_self_iff kept items]
  | .object entries => by
      rw [mapTexts, everyText, Json.object.injEq, mapTextsOfEntries_eq_self_iff kept entries]

theorem mapTextsOfItems_eq_self_iff (kept : ∀ text, change text = text ↔ keeps text = true) :
    (items : List Json) →
      (mapTextsOfItems change items = items ↔
        everyTextOfItems keeps (fun _ => true) items = true)
  | [] => by simp [mapTextsOfItems, everyTextOfItems]
  | item :: rest => by
      rw [mapTextsOfItems, everyTextOfItems, List.cons.injEq, Bool.and_eq_true,
        mapTexts_eq_self_iff kept item, mapTextsOfItems_eq_self_iff kept rest]

theorem mapTextsOfEntries_eq_self_iff (kept : ∀ text, change text = text ↔ keeps text = true) :
    (entries : List (String × Json)) →
      (mapTextsOfEntries change entries = entries ↔
        everyTextOfEntries keeps (fun _ => true) entries = true)
  | [] => by simp [mapTextsOfEntries, everyTextOfEntries]
  | (name, value) :: rest => by
      rw [mapTextsOfEntries, everyTextOfEntries, List.cons.injEq, Prod.mk.injEq, Bool.and_eq_true,
        Bool.true_and, mapTexts_eq_self_iff kept value, mapTextsOfEntries_eq_self_iff kept rest]
      simp

end

end

end DeployTarget.Json
