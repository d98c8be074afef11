/-!
# Maps that keep insertion order

A map holds each key once and remembers the order in which the keys first
arrived.  Writing an existing key replaces its value in place; writing a new one
appends it.
-/

namespace DeployTarget

/-- Replaces the value of `key` where it stands, or appends the pair. -/
def upsert {κ α : Type} [DecidableEq κ] (key : κ) (value : α) :
    List (κ × α) → List (κ × α)
  | [] => [(key, value)]
  | (other, old) :: rest =>
      if other = key then (key, value) :: rest
      else (other, old) :: upsert key value rest

/-- Writing a key that is there keeps all keys in their places, and a new key comes last. -/
theorem keys_upsert {κ α : Type} [DecidableEq κ] (key : κ) (value : α)
    (entries : List (κ × α)) :
    (upsert key value entries).map Prod.fst =
      if key ∈ entries.map Prod.fst then entries.map Prod.fst
      else entries.map Prod.fst ++ [key] := by
  induction entries with
  | nil => rfl
  | cons entry rest ih =>
      obtain ⟨first, old⟩ := entry
      by_cases here : first = key
      · subst here
        simp [upsert]
      · rw [upsert, if_neg here, List.map_cons, List.map_cons, ih]
        by_cases later : key ∈ rest.map Prod.fst
        · rw [if_pos later, if_pos (List.mem_cons_of_mem _ later)]
        · have new : key ∉ first :: rest.map Prod.fst := by
            simpa [Ne.symm here] using later
          rw [if_neg later, if_neg new, List.cons_append]

theorem nodup_keys_upsert {κ α : Type} [DecidableEq κ] {key : κ} {value : α}
    {entries : List (κ × α)} (distinct : (entries.map Prod.fst).Nodup) :
    ((upsert key value entries).map Prod.fst).Nodup := by
  rw [keys_upsert]
  split
  · exact distinct
  · next new =>
      rw [List.nodup_append]
      refine ⟨distinct, by simp, ?_⟩
      rintro other present _ written rfl
      rw [List.mem_singleton] at written
      exact new (written ▸ present)

/-- An association list with distinct keys, in the order of their arrival. -/
structure OrderedMap (κ α : Type) where
  entries : List (κ × α)
  distinct : (entries.map Prod.fst).Nodup
deriving DecidableEq

namespace OrderedMap

variable {κ α : Type}

def empty : OrderedMap κ α :=
  ⟨[], by simp⟩

instance : Inhabited (OrderedMap κ α) :=
  ⟨empty⟩

def keys (map : OrderedMap κ α) : List κ :=
  map.entries.map Prod.fst

def size (map : OrderedMap κ α) : Nat :=
  map.entries.length

def isEmpty (map : OrderedMap κ α) : Bool :=
  map.entries.isEmpty

variable [DecidableEq κ]

def get? (map : OrderedMap κ α) (key : κ) : Option α :=
  map.entries.lookup key

def contains (map : OrderedMap κ α) (key : κ) : Bool :=
  (map.get? key).isSome

/-- Writes a value for a key: in place for a key that is present, else at the end. -/
def insert (map : OrderedMap κ α) (key : κ) (value : α) : OrderedMap κ α :=
  ⟨upsert key value map.entries, nodup_keys_upsert map.distinct⟩

/-- Writes all pairs of a list, first to last. -/
def insertAll (map : OrderedMap κ α) (pairs : List (κ × α)) : OrderedMap κ α :=
  pairs.foldl (fun written pair => written.insert pair.1 pair.2) map

/-- The map that results from writing the pairs of a list, first to last. -/
def ofList (pairs : List (κ × α)) : OrderedMap κ α :=
  empty.insertAll pairs

/-- Overlays one map with another, whose values win. -/
def overlay (base top : OrderedMap κ α) : OrderedMap κ α :=
  base.insertAll top.entries

end OrderedMap

/-- Named texts in order: tags, host attributes, variables. -/
abbrev Tags :=
  OrderedMap String String

end DeployTarget
