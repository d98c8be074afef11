import DeployTarget.Json.Path
import DeployTarget.Proofs.References
import Mathlib.Data.List.DropRight

/-!
# The steps of a path

A path is read segment by segment: what stands on the two sides of a dot is read on its own, and
the steps of the one come before the steps of the other.  A location is written as a path with its
keys joined by dots and its positions in brackets.  Reading that path gives the location back, if
no key holds a character that a path cuts at and each position is one that a list can have.
-/

namespace DeployTarget

namespace Text

/-- A text is trimmed if and only if it neither begins nor ends with a blank. -/
theorem trimmed_eq_self_iff {text : List Char} :
    trimmed text = text ↔
      (∀ c, text.head? = some c → isBlank c = false) ∧
        ∀ c, text.getLast? = some c → isBlank c = false := by
  have ends (text : List Char) :
      trimEnd text = text ↔ ∀ c, text.getLast? = some c → isBlank c = false := by
    change text.rdropWhile isBlank = text ↔ _
    rw [List.rdropWhile_eq_self_iff]
    cases text using List.reverseRecOn with
    | nil => simp
    | append_singleton text last => simp
  have begins (text : List Char) :
      text.dropWhile isBlank = text ↔ ∀ c, text.head? = some c → isBlank c = false := by
    rw [List.dropWhile_eq_self_iff]
    cases text <;> simp
  rw [← begins, ← ends]
  constructor
  · intro kept
    have prefixes : trimEnd (text.dropWhile isBlank) <+: text.dropWhile isBlank :=
      List.rdropWhile_prefix isBlank _
    have suffixes : text.dropWhile isBlank <:+ text := List.dropWhile_suffix isBlank
    rw [trimmed] at kept
    have whole : text.dropWhile isBlank = text :=
      suffixes.eq_of_length_le (by simpa [kept] using prefixes.length_le)
    rw [whole] at kept
    exact ⟨whole, kept⟩
  · rintro ⟨whole, kept⟩
    rw [trimmed, whole, kept]

/-- A text without blanks is trimmed. -/
theorem trimmed_of_forall {text : List Char} (plain : ∀ c ∈ text, isBlank c = false) :
    trimmed text = text :=
  trimmed_eq_self_iff.mpr
    ⟨fun c first => plain c (List.mem_of_head? first),
      fun c last => plain c (List.mem_of_getLast? last)⟩

theorem isBlank_of_isDigit {c : Char} (digit : c.isDigit = true) : isBlank c = false := by
  simp only [Char.isDigit, Bool.and_eq_true, decide_eq_true_eq] at digit
  have least : 48 ≤ c.toNat := digit.1
  have greatest : c.toNat ≤ 57 := digit.2
  simp only [isBlank, Bool.or_eq_false_iff, Bool.and_eq_false_iff, decide_eq_false_iff_not,
    beq_eq_false_iff_ne]
  omega

end Text

namespace Json

/-! ## Paths in parts -/

/-- The steps of a path with a dot in it are those in front of the dot and those behind it. -/
theorem pathSteps?_dot (first second : List Char) :
    pathSteps? (first ++ '.' :: second) = do
      let steps ← pathSteps? first
      let others ← pathSteps? second
      return steps ++ others := by
  simp only [pathSteps?, List.splitOn_append_cons_self, List.filter_append, List.mapM_append,
    Option.bind_eq_bind, Option.pure_def]
  cases ((first.splitOn '.').filter (· ≠ [])).mapM segmentSteps? with
  | none => rfl
  | some steps =>
      cases ((second.splitOn '.').filter (· ≠ [])).mapM segmentSteps? with
      | none => rfl
      | some others => simp

/-- A dot in front of a path counts for nothing. -/
theorem pathSteps?_cons_dot (path : List Char) : pathSteps? ('.' :: path) = pathSteps? path := by
  have parts := pathSteps?_dot [] path
  rw [List.nil_append] at parts
  rw [parts]
  cases pathSteps? path <;> rfl

/-- A path without dots is a segment. -/
theorem pathSteps?_segment {segment : List Char} (single : '.' ∉ segment) :
    pathSteps? segment = segmentSteps? segment := by
  rw [pathSteps?, List.splitOn_eq_singleton single]
  by_cases empty : segment = []
  · subst empty
    rfl
  · rw [List.filter_cons_of_pos (by simpa using empty), List.filter_nil, List.mapM_cons]
    cases segmentSteps? segment <;> simp

/-! ## Written locations -/

/-- The text of a position: its decimal digits in brackets. -/
def bracket (index : Nat) : List Char :=
  '[' :: (Nat.toDigits 10 index ++ [']'])

/-- The text of a step behind other steps. -/
def Step.text : Step → List Char
  | .key name => '.' :: name.toList
  | .position index => bracket index

/-- The path of a location: its keys, joined by dots, and its positions in brackets. -/
def writtenPath : List Step → List Char
  | .key name :: rest => name.toList ++ rest.flatMap Step.text
  | steps => steps.flatMap Step.text

/-- A key that a path can name: a text that is neither empty nor begins or ends with a blank, and
that holds no character at which paths or references are cut. -/
structure IsPlainKey (name : String) : Prop where
  nonempty : name ≠ ""
  trimmed : Text.trim name = name
  noDot : '.' ∉ name.toList
  noBracket : '[' ∉ name.toList
  noAngle : '<' ∉ name.toList ∧ '>' ∉ name.toList

/-- The step that the text of a step is read as; a list has no position behind the largest. -/
def Step.read? : Step → Option Step
  | .key name => some (.key name)
  | .position index => if index ≤ largestPosition then some (.position index) else none

/-- Decimal digits without a sign are read as what they stand for. -/
theorem readPosition?_digits {digits : List Char} (nonempty : digits ≠ [])
    (decimal : ∀ c ∈ digits, c.isDigit = true) :
    readPosition? digits =
      if Number.ofDigits digits ≤ largestPosition then some (Number.ofDigits digits)
      else none := by
  unfold readPosition?
  split
  · have signed := decimal '+' List.mem_cons_self
    simp [Char.isDigit] at signed
  · simp only [ne_eq, nonempty, not_false_eq_true, List.all_eq_true.mpr decimal, true_and]

theorem readPosition?_toDigits (index : Nat) :
    readPosition? (Nat.toDigits 10 index) =
      if index ≤ largestPosition then some index else none := by
  have value : Number.ofDigits (Nat.toDigits 10 index) = index :=
    Nat.ofDigitChars_ten_toDigits
  rw [readPosition?_digits Nat.toDigits_ne_nil fun c member =>
    Nat.isDigit_of_mem_toDigits (by decide) (by decide) member, value]

/-- The digits of a position with their closing bracket are read as the position. -/
theorem readBracket?_toDigits (index : Nat) :
    readBracket? (Nat.toDigits 10 index ++ [']']) = (Step.position index).read? := by
  have opened : [']'].isSuffixOf? (Nat.toDigits 10 index ++ [']']) =
      some (Nat.toDigits 10 index) :=
    List.isSuffixOf?_eq_some_iff_append_eq.mpr rfl
  have trimmed : Text.trimmed (Nat.toDigits 10 index) = Nat.toDigits 10 index :=
    Text.trimmed_of_forall fun c member =>
      Text.isBlank_of_isDigit (Nat.isDigit_of_mem_toDigits (by decide) (by decide) member)
  rw [readBracket?, opened, Option.bind_eq_bind, Option.bind_some, trimmed,
    readPosition?_toDigits, Step.read?]
  split <;> rfl

/-- The steps that a segment names in front of its brackets: a key, unless it is empty. -/
def named (name : List Char) : List Step :=
  if name = [] then [] else [.key (String.ofList name)]

theorem mapM_read?_named (name : List Char) : (named name).mapM Step.read? = some (named name) := by
  unfold named
  split <;> rfl

theorem not_mem_toDigits {c : Char} (other : c.isDigit = false) (index : Nat) :
    c ∉ Nat.toDigits 10 index := by
  intro digit
  rw [Nat.isDigit_of_mem_toDigits (by decide) (by decide) digit] at other
  cases other

theorem not_mem_bracket {c : Char} (other : c.isDigit = false) (noBracket : c ≠ '[' ∧ c ≠ ']')
    (index : Nat) : c ∉ bracket index := by
  simpa [bracket, noBracket] using not_mem_toDigits other index

theorem not_mem_segment {c : Char} {name : List Char} (absent : c ∉ name)
    (other : c.isDigit = false) (noBracket : c ≠ '[' ∧ c ≠ ']') (indices : List Nat) :
    c ∉ name ++ indices.flatMap bracket := by
  simpa [absent] using fun index _ => not_mem_bracket other noBracket index

/-- Texts without opening brackets come back from the text that has a bracket in front of each but
the first. -/
theorem splitOn_groups {name : List Char} {groups : List (List Char)}
    (clean : ∀ text ∈ name :: groups, '[' ∉ text) :
    (name ++ groups.flatMap ('[' :: ·)).splitOn '[' = name :: groups := by
  induction groups generalizing name with
  | nil =>
      rw [List.flatMap_nil, List.append_nil]
      exact List.splitOn_eq_singleton (clean name List.mem_cons_self)
  | cons group rest ih =>
      obtain ⟨noBracket, later⟩ := List.forall_mem_cons.mp clean
      rw [List.flatMap_cons, List.cons_append,
        List.splitOn_append_cons_self_of_not_mem noBracket, ih later]

/-- A segment is read as its name and what is read behind each of its brackets; where nothing
stands behind a bracket, nothing is read. -/
theorem segmentSteps?_groups {name : List Char} {groups : List (List Char)}
    (clean : ∀ text ∈ name :: groups, '[' ∉ text) :
    segmentSteps? (name ++ groups.flatMap ('[' :: ·)) =
      ((groups.filter (· ≠ [])).mapM readBracket?).map (named name ++ ·) := by
  have other : ∀ c ∈ name, (c != '[') = true := fun c member =>
    bne_iff_ne.mpr fun same => clean name List.mem_cons_self (same ▸ member)
  have behind : (groups.flatMap ('[' :: ·)).takeWhile (· != '[') = [] ∧
      (groups.flatMap ('[' :: ·)).dropWhile (· != '[') = groups.flatMap ('[' :: ·) := by
    cases groups <;> simp
  have pieces : ((groups.flatMap ('[' :: ·)).splitOn '[').filter (· ≠ []) =
      groups.filter (· ≠ []) := by
    have cleanBehind : ∀ text ∈ [] :: groups, '[' ∉ text :=
      List.forall_mem_cons.mpr ⟨List.not_mem_nil, (List.forall_mem_cons.mp clean).2⟩
    have cut := splitOn_groups cleanBehind
    rw [List.nil_append] at cut
    rw [cut, List.filter_cons_of_neg (by simp)]
  rw [segmentSteps?, List.takeWhile_append_of_pos other, List.dropWhile_append_of_pos other,
    behind.1, behind.2, pieces, List.append_nil]
  cases (groups.filter (· ≠ [])).mapM readBracket? with
  | none => rfl
  | some steps => by_cases unnamed : name = [] <;> simp [named, unnamed]

/-- A segment with brackets is read as its key and its positions. -/
theorem segmentSteps?_brackets {name : List Char} (noBracket : '[' ∉ name) (indices : List Nat) :
    segmentSteps? (name ++ indices.flatMap bracket) =
      (named name ++ indices.map Step.position).mapM Step.read? := by
  have groups : indices.flatMap bracket =
      (indices.map fun index => Nat.toDigits 10 index ++ [']']).flatMap ('[' :: ·) := by
    rw [List.flatMap_map]
    rfl
  have clean : ∀ text ∈ name :: indices.map fun index => Nat.toDigits 10 index ++ [']'],
      '[' ∉ text := by
    simp only [List.forall_mem_cons, List.forall_mem_map]
    refine ⟨noBracket, fun index _ => ?_⟩
    simpa using not_mem_toDigits (by decide) index
  have kept : (indices.map fun index => Nat.toDigits 10 index ++ [']']).filter (· ≠ []) =
      indices.map fun index => Nat.toDigits 10 index ++ [']'] := by
    rw [List.filter_eq_self]
    simp
  rw [groups, segmentSteps?_groups clean, kept, List.mapM_append, mapM_read?_named]
  simp only [List.mapM_map, Function.comp_def, readBracket?_toDigits]
  cases indices.mapM fun index => (Step.position index).read? <;> rfl

theorem pathSteps?_brackets {name : List Char} (noBracket : '[' ∉ name) (noDot : '.' ∉ name)
    (indices : List Nat) :
    pathSteps? (name ++ indices.flatMap bracket) =
      (named name ++ indices.map Step.position).mapM Step.read? := by
  rw [pathSteps?_segment (not_mem_segment noDot (by decide) (by decide) indices),
    segmentSteps?_brackets noBracket]

/-- A segment and the texts of the steps behind it are read as all of their steps. -/
theorem pathSteps?_append {name : List Char} (noBracket : '[' ∉ name) (noDot : '.' ∉ name)
    (indices : List Nat) {rest : List Step}
    (plain : ∀ key, .key key ∈ rest → IsPlainKey key) :
    pathSteps? (name ++ indices.flatMap bracket ++ rest.flatMap Step.text) =
      (named name ++ indices.map Step.position ++ rest).mapM Step.read? := by
  induction rest generalizing name indices with
  | nil =>
      rw [List.flatMap_nil, List.append_nil, List.append_nil, pathSteps?_brackets noBracket noDot]
  | cons step rest ih =>
      have later (key : String) (member : .key key ∈ rest) : IsPlainKey key :=
        plain key (List.mem_cons_of_mem _ member)
      cases step with
      | position index =>
          -- A position goes on with the segment.
          have longer := ih noBracket noDot (indices ++ [index]) later
          rw [List.flatMap_append, List.map_append] at longer
          simpa [Step.text] using longer
      | key key =>
          -- A key begins the next one.
          have isPlain := plain key List.mem_cons_self
          have next := ih isPlain.noBracket isPlain.noDot [] later
          have unnamed : key.toList ≠ [] := by simpa using isPlain.nonempty
          simp only [List.flatMap_nil, List.append_nil, List.map_nil, named, unnamed, if_false,
            String.ofList_toList, List.singleton_append] at next
          rw [List.flatMap_cons, Step.text, List.cons_append, pathSteps?_dot,
            pathSteps?_brackets noBracket noDot, next]
          exact List.mapM_append.symm

/-- The path of a location is read as the location, if each of its positions is one that a list
can have, and otherwise it is no path. -/
theorem pathSteps?_writtenPath {location : List Step}
    (plain : ∀ key, .key key ∈ location → IsPlainKey key) :
    pathSteps? (writtenPath location) = location.mapM Step.read? := by
  have begun := pathSteps?_append (List.not_mem_nil (a := '[')) (List.not_mem_nil (a := '.')) []
    plain
  cases location with
  | nil => rfl
  | cons step rest =>
      cases step with
      | position index => exact begun
      | key key =>
          change pathSteps? ('.' :: writtenPath (.key key :: rest)) = _ at begun
          rwa [pathSteps?_cons_dot] at begun

end Json

end DeployTarget
