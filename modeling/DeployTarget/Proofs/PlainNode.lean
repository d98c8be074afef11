import DeployTarget.Proofs.Canonical
import DeployTarget.Yaml.Reader

/-!
# Nodes of plain data

Plain data makes up a tree of nodes in which texts are plain or quoted.  If no plain text
stands for anything but itself, then the tree is read as the data, or not at all where an
object holds a key twice.
-/

namespace DeployTarget.Yaml

namespace Node

/-- The node of a text. -/
def ofText (isPlain : String → Bool) (text : String) : Node :=
  .scalar text (isPlain text) none

mutual

/-- The tree of plain data, where the given texts are plain and all others are quoted. -/
def ofJson (isPlain : String → Bool) : Json → Node
  | .null => .scalar "null" true none
  | .bool true => .scalar "true" true none
  | .bool false => .scalar "false" true none
  | .number value => .scalar value.text true none
  | .string text => ofText isPlain text
  | .array items => .sequence (itemsOfJson isPlain items) none
  | .object entries => .mapping (entriesOfJson isPlain entries) none

def itemsOfJson (isPlain : String → Bool) : List Json → List Node
  | [] => []
  | item :: rest => ofJson isPlain item :: itemsOfJson isPlain rest

def entriesOfJson (isPlain : String → Bool) : List (String × Json) → List (Node × Node)
  | [] => []
  | (key, value) :: rest =>
      (ofText isPlain key, ofJson isPlain value) :: entriesOfJson isPlain rest

end

end Node

namespace Value

/-- Two texts are the same key only if they are equal. -/
theorem same_text (first second : String) :
    (text first).same (text second) = (first == second) := by
  change (Scalar.text first == Scalar.text second) = (first == second)
  by_cases same : first = second <;> simp [same]

theorem any_same_entriesOfJson (key : String) (entries : List (String × Json)) :
    ((entriesOfJson entries).any fun other => (text key).same other.1) =
      decide (key ∈ entries.map Prod.fst) := by
  induction entries with
  | nil => rfl
  | cons entry rest ih =>
      obtain ⟨name, value⟩ := entry
      rw [entriesOfJson, List.any_cons, ih, same_text]
      simp only [List.map_cons, List.mem_cons, Bool.decide_or]
      rfl

/-- The entries of plain data are distinct as keys if and only if their names are. -/
theorem distinct?_entriesOfJson (entries : List (String × Json)) :
    distinct? (entriesOfJson entries) =
      if (entries.map Prod.fst).Nodup then some (entriesOfJson entries) else none := by
  induction entries with
  | nil => rfl
  | cons entry rest ih =>
      obtain ⟨key, value⟩ := entry
      rw [entriesOfJson, distinct?, any_same_entriesOfJson, ih, List.map_cons]
      by_cases member : key ∈ rest.map Prod.fst
      · rw [if_pos (decide_eq_true member), if_neg fun distinct =>
          (List.nodup_cons.mp distinct).1 member]
      · rw [if_neg (by simpa using member)]
        by_cases distinct : (rest.map Prod.fst).Nodup
        · rw [if_pos distinct, if_pos (List.nodup_cons.mpr ⟨member, distinct⟩)]
          rfl
        · rw [if_neg distinct, if_neg fun both => distinct (List.nodup_cons.mp both).2]
          rfl

/-- Whether texts that are plain stand for themselves. -/
def IsFaithful (isPlain : String → Bool) : Prop :=
  ∀ text, isPlain text = true → Scalar.ofPlain? text = some (.text text)

variable {isPlain : String → Bool}

theorem ofNode?_ofText (faithful : IsFaithful isPlain) (text : String) :
    ofNode? (Node.ofText isPlain text) = some (Value.text text) := by
  cases plain : isPlain text with
  | false => simp [Node.ofText, ofNode?, plain, localTag?, Scalar.ofUntagged?, tagged?, Value.text]
  | true =>
      simp [Node.ofText, ofNode?, plain, localTag?, Scalar.ofUntagged?, tagged?, Value.text,
        faithful text plain]

mutual

theorem ofNode?_ofJson (faithful : IsFaithful isPlain) (bound : Nat) :
    (value : Json) → value.fits bound = true →
      ofNode? (Node.ofJson isPlain value) =
        if value.isDistinct then some (ofJson value) else none
  | .null, _ => rfl
  | .bool true, _ => rfl
  | .bool false, _ => rfl
  | .number _, fits => by cases bound <;> cases fits
  | .string text, _ => ofNode?_ofText faithful text
  | .array items, fits => by
      cases bound with
      | zero => cases fits
      | succ bound =>
          rw [Node.ofJson, ofNode?, itemsOfNodes?_itemsOfJson faithful bound items fits,
            Json.isDistinct]
          split <;> rfl
  | .object entries, fits => by
      cases bound with
      | zero => cases fits
      | succ bound =>
          rw [Node.ofJson, ofNode?, entriesOfNodes?_entriesOfJson faithful bound entries fits,
            Json.isDistinct]
          cases Json.entriesAreDistinct entries with
          | false => simp
          | true =>
              simp only [if_true, Option.bind_eq_bind, Option.bind_some, Bool.and_true,
                distinct?_entriesOfJson, decide_eq_true_eq]
              split <;> rfl

theorem itemsOfNodes?_itemsOfJson (faithful : IsFaithful isPlain) (bound : Nat) :
    (items : List Json) → Json.allFit bound items = true →
      itemsOfNodes? (Node.itemsOfJson isPlain items) =
        if Json.areDistinct items then some (itemsOfJson items) else none
  | [], _ => rfl
  | item :: rest, fits => by
      obtain ⟨first, others⟩ := Bool.and_eq_true_iff.mp fits
      rw [Node.itemsOfJson, itemsOfNodes?, ofNode?_ofJson faithful bound item first,
        itemsOfNodes?_itemsOfJson faithful bound rest others, Json.areDistinct]
      cases item.isDistinct <;> cases Json.areDistinct rest <;> rfl

theorem entriesOfNodes?_entriesOfJson (faithful : IsFaithful isPlain) (bound : Nat) :
    (entries : List (String × Json)) → Json.entriesFit bound entries = true →
      entriesOfNodes? (Node.entriesOfJson isPlain entries) =
        if Json.entriesAreDistinct entries then some (entriesOfJson entries) else none
  | [], _ => rfl
  | (key, value) :: rest, fits => by
      obtain ⟨first, others⟩ := Bool.and_eq_true_iff.mp fits
      rw [Node.entriesOfJson, entriesOfNodes?, ofNode?_ofText faithful key,
        ofNode?_ofJson faithful bound value first,
        entriesOfNodes?_entriesOfJson faithful bound rest others, Json.entriesAreDistinct]
      cases value.isDistinct <;> cases Json.entriesAreDistinct rest <;> rfl

end

end Value

end DeployTarget.Yaml
