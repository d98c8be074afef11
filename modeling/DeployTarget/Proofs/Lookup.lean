import DeployTarget.OrderedMap

/-!
# Values behind keys

The first entry of a key in a list is the one that is found, and where keys are distinct it
is the only one.  What stands under a key of an ordered map after pairs have been written to
it is the value that was written for the key, and else the one from before.
-/

namespace DeployTarget

variable {κ α : Type} [DecidableEq κ]

/-! ## Lists of entries -/

theorem lookup_cons_eq_ite (key first : κ) (value : α) (rest : List (κ × α)) :
    List.lookup key ((first, value) :: rest) =
      if key = first then some value else rest.lookup key := by
  rw [List.lookup_cons]
  by_cases same : key = first
  · simp [same]
  · simp [same, beq_eq_false_iff_ne.mpr same]

theorem lookup_eq_none_of_not_mem_keys {key : κ} {entries : List (κ × α)}
    (absent : key ∉ entries.map Prod.fst) : entries.lookup key = none := by
  rw [List.lookup_eq_none_iff]
  intro entry member
  rw [bne_iff_ne]
  rintro rfl
  exact absent (List.mem_map_of_mem member)

/-- An entry is found if no other one has its key. -/
theorem lookup_of_mem {key : κ} {value : α} {entries : List (κ × α)}
    (distinct : (entries.map Prod.fst).Nodup) (member : (key, value) ∈ entries) :
    entries.lookup key = some value := by
  induction entries with
  | nil => cases member
  | cons entry rest ih =>
      obtain ⟨first, other⟩ := entry
      obtain ⟨new, distinct⟩ := List.nodup_cons.mp distinct
      rw [lookup_cons_eq_ite]
      rcases List.mem_cons.mp member with same | later
      · cases same
        exact if_pos rfl
      · have different : key ≠ first := fun same =>
          new (List.mem_map.mpr ⟨(key, value), later, same⟩)
        rw [if_neg different, ih distinct later]

theorem lookup_upsert (key other : κ) (value : α) (entries : List (κ × α)) :
    (upsert key value entries).lookup other =
      if other = key then some value else entries.lookup other := by
  induction entries with
  | nil => exact lookup_cons_eq_ite other key value []
  | cons entry rest ih =>
      obtain ⟨first, old⟩ := entry
      by_cases here : first = key
      · subst here
        rw [upsert, if_pos rfl, lookup_cons_eq_ite, lookup_cons_eq_ite]
        split <;> rfl
      · rw [upsert, if_neg here, lookup_cons_eq_ite, lookup_cons_eq_ite, ih]
        by_cases same : other = key
        · subst same
          rw [if_neg (Ne.symm here), if_pos rfl, if_pos rfl]
        · simp only [if_neg same]

/-! ## Ordered maps -/

namespace OrderedMap

theorem get?_eq_some_iff {map : OrderedMap κ α} {key : κ} {value : α} :
    map.get? key = some value ↔ (key, value) ∈ map.entries := by
  constructor
  · intro found
    obtain ⟨before, after, same, -⟩ := List.lookup_eq_some_iff.mp found
    rw [same]
    exact List.mem_append_right _ List.mem_cons_self
  · exact lookup_of_mem map.distinct

theorem contains_iff_mem_keys {map : OrderedMap κ α} {key : κ} :
    map.contains key = true ↔ key ∈ map.keys := by
  simp [contains, Option.isSome_iff_exists, get?_eq_some_iff, keys]

theorem get?_insert (map : OrderedMap κ α) (key other : κ) (value : α) :
    (map.insert key value).get? other = if other = key then some value else map.get? other :=
  lookup_upsert key other value map.entries

/-- Of pairs with distinct keys, each is found in the map that they are written to. -/
theorem get?_insertAll (map : OrderedMap κ α) (pairs : List (κ × α))
    (distinct : (pairs.map Prod.fst).Nodup) (key : κ) :
    (map.insertAll pairs).get? key = (pairs.lookup key).or (map.get? key) := by
  induction pairs generalizing map with
  | nil => rfl
  | cons pair rest ih =>
      obtain ⟨first, value⟩ := pair
      obtain ⟨new, distinct⟩ := List.nodup_cons.mp distinct
      have written : (map.insertAll ((first, value) :: rest)).get? key =
          (rest.lookup key).or ((map.insert first value).get? key) :=
        ih (map.insert first value) distinct
      rw [written, get?_insert, lookup_cons_eq_ite]
      by_cases same : key = first
      · subst same
        simp [lookup_eq_none_of_not_mem_keys new]
      · simp only [if_neg same]

theorem get?_overlay (base top : OrderedMap κ α) (key : κ) :
    (base.overlay top).get? key = (top.get? key).or (base.get? key) :=
  base.get?_insertAll top.entries top.distinct key

end OrderedMap

end DeployTarget
