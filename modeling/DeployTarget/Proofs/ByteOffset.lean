import DeployTarget.Expression.Template
import Mathlib.Tactic.Common

/-!
# Offsets in bytes

An offset into a text counts the bytes of its characters.  Only between two characters is
it a place to cut the text: an offset behind the end or inside a character is none.
-/

namespace DeployTarget

namespace Template

@[simp]
theorem byteLength_nil : byteLength [] = 0 :=
  rfl

private theorem foldl_utf8Size (text : List Char) (size : Nat) :
    text.foldl (fun size c => size + c.utf8Size) size = size + byteLength text := by
  induction text generalizing size with
  | nil => rfl
  | cons c rest ih =>
      rw [byteLength, List.foldl_cons, List.foldl_cons, ih, ih, Nat.zero_add, Nat.add_assoc]

@[simp]
theorem byteLength_cons (c : Char) (text : List Char) :
    byteLength (c :: text) = c.utf8Size + byteLength text := by
  rw [byteLength, List.foldl_cons, foldl_utf8Size, Nat.zero_add]

@[simp]
theorem byteLength_append (first second : List Char) :
    byteLength (first ++ second) = byteLength first + byteLength second := by
  rw [byteLength, List.foldl_append, foldl_utf8Size]
  rfl

/-- Characters of one byte each are as many as their bytes. -/
theorem byteLength_eq_length {text : List Char} (single : ∀ c ∈ text, c.utf8Size = 1) :
    byteLength text = text.length := by
  induction text with
  | nil => rfl
  | cons c rest ih =>
      obtain ⟨first, others⟩ := List.forall_mem_cons.mp single
      rw [byteLength_cons, first, ih others, List.length_cons, Nat.add_comm]

end Template

namespace Text

open Template

/-- Cuts a text behind a number of bytes. -/
def cutAt? : List Char → Nat → Option (List Char × List Char)
  | text, 0 => some ([], text)
  | [], _ + 1 => none
  | c :: rest, offset =>
      if offset < c.utf8Size then none
      else (cutAt? rest (offset - c.utf8Size)).map fun cut => (c :: cut.1, cut.2)

/-- The characters from one offset up to another. -/
def slice? (text : List Char) (first last : Nat) : Option (List Char) := do
  let (front, _) ← cutAt? text last
  let (_, middle) ← cutAt? front first
  return middle

/-- The text with the characters from one offset up to another replaced. -/
def replaceSlice? (text : List Char) (first last : Nat) (value : List Char) :
    Option (List Char) := do
  let (front, behind) ← cutAt? text last
  let (kept, _) ← cutAt? front first
  return kept ++ value ++ behind

@[simp]
theorem cutAt?_zero (text : List Char) : cutAt? text 0 = some ([], text) := by
  cases text <;> rfl

theorem cutAt?_inside {c : Char} {offset : Nat} (positive : 0 < offset)
    (inside : offset < c.utf8Size) (rest : List Char) : cutAt? (c :: rest) offset = none := by
  obtain ⟨offset, rfl⟩ := Nat.exists_eq_add_one.mpr positive
  rw [cutAt?, if_pos inside]
  exact Nat.succ_ne_zero offset

theorem cutAt?_behind (c : Char) (rest : List Char) (offset : Nat) :
    cutAt? (c :: rest) (c.utf8Size + offset) =
      (cutAt? rest offset).map fun cut => (c :: cut.1, cut.2) := by
  have positive := c.utf8Size_pos
  rw [cutAt?, if_neg (by omega), Nat.add_sub_cancel_left]
  omega

/-- An offset cuts a text if and only if it counts the bytes of characters in front. -/
theorem cutAt?_eq_some_iff {text front behind : List Char} {offset : Nat} :
    cutAt? text offset = some (front, behind) ↔
      text = front ++ behind ∧ byteLength front = offset := by
  constructor
  · intro cut
    induction text generalizing front offset with
    | nil =>
        cases offset with
        | zero => cases cut; exact ⟨rfl, rfl⟩
        | succ offset => cases cut
    | cons c rest ih =>
        rcases Nat.eq_zero_or_pos offset with rfl | positive
        · cases cut
          exact ⟨rfl, rfl⟩
        · by_cases inside : offset < c.utf8Size
          · rw [cutAt?_inside positive inside] at cut
            cases cut
          · obtain ⟨offset, rfl⟩ := Nat.exists_eq_add_of_le (Nat.le_of_not_lt inside)
            rw [cutAt?_behind] at cut
            obtain ⟨⟨kept, _⟩, cutRest, same⟩ := Option.map_eq_some_iff.mp cut
            cases same
            obtain ⟨rfl, rfl⟩ := ih cutRest
            exact ⟨rfl, byteLength_cons c kept⟩
  · rintro ⟨rfl, rfl⟩
    induction front with
    | nil => exact cutAt?_zero behind
    | cons c front ih => rw [List.cons_append, byteLength_cons, cutAt?_behind, ih]; rfl

@[simp]
theorem cutAt?_append (front behind : List Char) :
    cutAt? (front ++ behind) (byteLength front) = some (front, behind) :=
  cutAt?_eq_some_iff.mpr ⟨rfl, rfl⟩

section Slices

variable {text : List Char} (front middle behind : List Char) {first last : Nat}

/-- The characters between two offsets, by what is in front of them and behind them. -/
theorem slice?_eq_some (parts : text = front ++ middle ++ behind)
    (starts : byteLength front = first) (ends : byteLength (front ++ middle) = last) :
    slice? text first last = some middle := by
  subst parts starts ends
  simp only [slice?, cutAt?_append, Option.bind_eq_bind, Option.bind_some, Option.pure_def]

theorem replaceSlice?_eq_some (parts : text = front ++ middle ++ behind)
    (starts : byteLength front = first) (ends : byteLength (front ++ middle) = last)
    (value : List Char) :
    replaceSlice? text first last value = some (front ++ value ++ behind) := by
  subst parts starts ends
  simp only [replaceSlice?, cutAt?_append, Option.bind_eq_bind, Option.bind_some,
    Option.pure_def]

end Slices

end Text

end DeployTarget
