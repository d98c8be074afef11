import DeployTarget.Proofs.Canonical
import DeployTarget.Proofs.Lookup

/-!
# Overlaid maps

An ordered map is its keys in their order and the value under each of them.  Overlaying a map
leaves the keys that are there in their places and appends the others, and the value on top wins.
All laws of overlaying follow from these two facts: how three maps are grouped makes no
difference, not even to the order, the empty map adds nothing on either side, and what has been
laid on top once adds nothing when it is laid on top again.
-/

namespace DeployTarget

namespace OrderedMap

variable {κ α : Type} [DecidableEq κ]

/-! ## Maps as keys with values -/

/-- The entries of a map are its keys, each with what is found under it. -/
theorem entries_eq_filterMap (map : OrderedMap κ α) :
    map.entries = map.keys.filterMap fun key => (map.get? key).map fun value => (key, value) := by
  have found : ∀ entry ∈ map.entries,
      ((map.get? entry.1).map fun value => (entry.1, value)) = some entry := by
    intro entry member
    rw [get?_eq_some_iff.mpr member, Option.map_some]
  calc
    map.entries = map.entries.filterMap some := List.filterMap_some.symm
    _ = map.entries.filterMap fun entry =>
          (map.get? entry.1).map fun value => (entry.1, value) :=
      List.filterMap_congr fun entry member => (found entry member).symm
    _ = map.keys.filterMap fun key => (map.get? key).map fun value => (key, value) := by
      rw [keys, List.filterMap_map]
      rfl

/-- Maps with the same keys in the same order and the same values under them are the same. -/
theorem ext_get? {first second : OrderedMap κ α} (sameKeys : first.keys = second.keys)
    (sameValues : ∀ key, first.get? key = second.get? key) : first = second := by
  apply ext_entries
  rw [entries_eq_filterMap first, entries_eq_filterMap second, sameKeys]
  simp only [sameValues]

/-! ## Keys of overlaid maps -/

theorem keys_insert (map : OrderedMap κ α) (key : κ) (value : α) :
    (map.insert key value).keys =
      if key ∈ map.keys then map.keys else map.keys ++ [key] :=
  keys_upsert key value map.entries

/-- Writing pairs with distinct keys appends the keys that are new, in their order. -/
theorem keys_insertAll (map : OrderedMap κ α) (pairs : List (κ × α))
    (distinct : (pairs.map Prod.fst).Nodup) :
    (map.insertAll pairs).keys =
      map.keys ++ (pairs.map Prod.fst).filter fun key => key ∉ map.keys := by
  induction pairs generalizing map with
  | nil => exact (List.append_nil _).symm
  | cons pair rest ih =>
      obtain ⟨first, value⟩ := pair
      obtain ⟨new, distinct⟩ := List.nodup_cons.mp distinct
      have written : (map.insertAll ((first, value) :: rest)).keys =
          (map.insert first value).keys ++
            (rest.map Prod.fst).filter fun key => key ∉ (map.insert first value).keys :=
        ih (map.insert first value) distinct
      rw [written, keys_insert, List.map_cons]
      by_cases present : first ∈ map.keys
      · rw [if_pos present, List.filter_cons_of_neg (by simpa using present)]
      · -- None of the other pairs is written to the key that is now new.
        have others : ((rest.map Prod.fst).filter fun key => key ∉ map.keys ++ [first]) =
            (rest.map Prod.fst).filter fun key => key ∉ map.keys := by
          apply List.filter_congr
          intro key member
          have different : key ≠ first := fun same => new (same ▸ member)
          simp [different]
        rw [if_neg present, others, List.filter_cons_of_pos (by simpa using present),
          List.append_assoc, List.singleton_append]

theorem keys_overlay (base top : OrderedMap κ α) :
    (base.overlay top).keys = base.keys ++ top.keys.filter fun key => key ∉ base.keys :=
  base.keys_insertAll top.entries top.distinct

/-! ## Laws of overlaying -/

theorem overlay_empty (base : OrderedMap κ α) : base.overlay empty = base :=
  rfl

theorem empty_overlay (top : OrderedMap κ α) : empty.overlay top = top :=
  ofList_entries top

theorem overlay_self (map : OrderedMap κ α) : map.overlay map = map := by
  apply ext_get?
  · rw [keys_overlay, List.filter_eq_nil_iff.mpr (by simp), List.append_nil]
  · intro key
    rw [get?_overlay, Option.or_self]

theorem overlay_assoc (base middle top : OrderedMap κ α) :
    (base.overlay middle).overlay top = base.overlay (middle.overlay top) := by
  apply ext_get?
  · have behind :
        (top.keys.filter fun key => key ∉ (base.overlay middle).keys) =
          (top.keys.filter fun key => key ∉ middle.keys).filter fun key => key ∉ base.keys := by
      rw [List.filter_filter]
      apply List.filter_congr
      intro key _
      by_cases inBase : key ∈ base.keys <;> simp [keys_overlay, inBase]
    rw [keys_overlay (base.overlay middle), behind, keys_overlay base middle,
      keys_overlay base, keys_overlay middle, List.filter_append, List.append_assoc]
  · intro key
    simp only [get?_overlay, Option.or_assoc]

/-- Overlaying is an ordered union in which the top wins.  Each key stands once, the keys of the
base in their order before the others of the top in theirs, and has the value of the top, or else
that of the base.  Grouping makes no difference, not even to the order, the empty map is neutral
on both sides, and the same top laid on again changes nothing. -/
theorem overlay_isUnion (base top upper : OrderedMap κ α) :
    ((base.overlay top).keys.Nodup ∧
      (base.overlay top).keys = base.keys ++ top.keys.filter (fun key => key ∉ base.keys) ∧
      ∀ key, (base.overlay top).get? key = (top.get? key).or (base.get? key)) ∧
    (base.overlay top).overlay upper = base.overlay (top.overlay upper) ∧
    empty.overlay base = base ∧ base.overlay empty = base ∧
    (base.overlay top).overlay top = base.overlay top := by
  refine ⟨⟨(base.overlay top).distinct, keys_overlay base top, get?_overlay base top⟩,
    overlay_assoc base top upper, empty_overlay base, overlay_empty base, ?_⟩
  calc
    (base.overlay top).overlay top = base.overlay (top.overlay top) := overlay_assoc base top top
    _ = base.overlay top := by rw [overlay_self]

end OrderedMap

end DeployTarget
