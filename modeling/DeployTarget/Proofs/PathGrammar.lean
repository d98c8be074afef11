import DeployTarget.Proofs.Addressing

/-!
# The grammar of paths

A path in front of a dot leads to where the path behind the dot begins.  Between its dots a path is
made of segments, and a segment is a name with groups behind it, each of them opened by a bracket.
A group is to hold decimal digits between blanks and a closing bracket.  The reader takes two more
kinds of it: digits with a plus sign, and an opening bracket that is followed by another one or by
nothing, which brings no step.  It takes nothing else, so a path that finds a value is well-formed
unless one of its segments has such a group.
-/

namespace DeployTarget

namespace Text

variable {front text behind : List Char}

/-- Blanks behind a text are trimmed. -/
theorem trimmed_append_blanks (blank : ∀ c ∈ behind, isBlank c = true) :
    trimmed (text ++ behind) = trimmed text := by
  have ended (text : List Char) : trimEnd (text ++ behind) = trimEnd text := by
    rw [trimEnd, List.reverse_append, List.dropWhile_append_of_pos (by simpa using blank), trimEnd]
  rw [trimmed, List.dropWhile_append, List.dropWhile_eq_nil_iff.mpr blank]
  by_cases allBlank : text.dropWhile isBlank = []
  · rw [trimmed, allBlank]
    rfl
  · rw [if_neg (by simpa using allBlank), ended, trimmed]

/-- What is trimmed comes back from between blanks. -/
theorem trimmed_between (blankFront : ∀ c ∈ front, isBlank c = true)
    (blankBehind : ∀ c ∈ behind, isBlank c = true) (kept : trimmed text = text) :
    trimmed (front ++ text ++ behind) = text := by
  rw [trimmed_append_blanks blankBehind, trimmed, List.dropWhile_append_of_pos blankFront,
    ← trimmed, kept]

end Text

namespace Json

/-! ## Paths behind paths -/

/-- A path with a dot in it is followed up to the dot and on from there. -/
theorem find?_dot (document : Json) (first second : String) :
    document.find? (first ++ "." ++ second) =
      (document.find? first).bind fun middle => middle.find? second := by
  have cut : (first ++ "." ++ second).toList = first.toList ++ '.' :: second.toList := by simp
  simp only [find?, cut, pathSteps?_dot, Option.bind_eq_bind, Option.pure_def]
  cases pathSteps? first.toList with
  | none => rfl
  | some steps =>
      cases pathSteps? second.toList with
      | none => cases walked : document.walk? steps <;> simp [walked]
      | some others => exact List.foldlM_append

/-- A path with a dot in it finds a value if and only if what is in front of the dot finds a value,
and what is behind the dot finds it from there. -/
theorem find?_dot_eq_some_iff (document value : Json) (first second : String) :
    document.find? (first ++ "." ++ second) = some value ↔
      ∃ middle, document.find? first = some middle ∧ middle.find? second = some value := by
  rw [find?_dot, Option.bind_eq_some_iff]

/-! ## Groups -/

/-- Says that a text is a sign and the decimal digits of an index, between blanks and in front of a
closing bracket. -/
inductive IsIndex (sign : List Char) : List Char → Nat → Prop where
  | intro {front digits behind : List Char}
      (blankFront : ∀ c ∈ front, Text.isBlank c = true) (nonempty : digits ≠ [])
      (decimal : ∀ c ∈ digits, c.isDigit = true)
      (blankBehind : ∀ c ∈ behind, Text.isBlank c = true) :
      IsIndex sign (front ++ (sign ++ digits) ++ behind ++ [']']) (Number.ofDigits digits)

/-- Says which steps an opening bracket brings with the text behind it. -/
inductive Opens : List Char → List Step → Prop where
  | nothing : Opens [] []
  | position {sign group : List Char} {index : Nat} (signed : sign = [] ∨ sign = ['+'])
      (isIndex : IsIndex sign group index) (small : index ≤ largestPosition) :
      Opens group [.position index]

variable {sign group : List Char} {index : Nat}

theorem IsIndex.ne_nil (isIndex : IsIndex sign group index) : group ≠ [] := by
  cases isIndex
  simp

/-- A group holds a sign, blanks, digits and its closing bracket, and no other character. -/
theorem IsIndex.not_mem (isIndex : IsIndex sign group index) {c : Char} (unsigned : c ∉ sign)
    (noBlank : Text.isBlank c = false) (noDigit : c.isDigit = false) (noBracket : c ≠ ']') :
    c ∉ group := by
  obtain ⟨blankFront, -, decimal, blankBehind⟩ := isIndex
  intro member
  simp only [List.mem_append, List.mem_singleton] at member
  rcases member with ((first | signed | digit) | last) | closing
  · rw [blankFront c first] at noBlank
    cases noBlank
  · exact unsigned signed
  · rw [decimal c digit] at noDigit
    cases noDigit
  · rw [blankBehind c last] at noBlank
    cases noBlank
  · exact noBracket closing

theorem Opens.noBracket {steps : List Step} (opens : Opens group steps) : '[' ∉ group := by
  cases opens with
  | nothing => exact List.not_mem_nil
  | position signed isIndex small =>
      refine isIndex.not_mem ?_ (by decide) (by decide) (by decide)
      rcases signed with rfl | rfl <;> decide

/-- The text of a position is its digits, or those behind its plus sign. -/
theorem exists_readPosition?_eq (text : List Char) :
    ∃ sign digits, (sign = [] ∨ sign = ['+']) ∧ text = sign ++ digits ∧
      readPosition? text =
        if digits ≠ [] ∧ digits.all Char.isDigit ∧ Number.ofDigits digits ≤ largestPosition then
          some (Number.ofDigits digits)
        else none := by
  by_cases signed : ∃ digits, text = '+' :: digits
  · obtain ⟨digits, rfl⟩ := signed
    exact ⟨['+'], digits, .inr rfl, rfl, rfl⟩
  · refine ⟨[], text, .inl rfl, rfl, ?_⟩
    unfold readPosition?
    split
    · exact absurd ⟨_, rfl⟩ signed
    · simp only []

/-- A plus sign in front of decimal digits counts for nothing. -/
theorem readPosition?_plus {digits : List Char} (nonempty : digits ≠ [])
    (decimal : ∀ c ∈ digits, c.isDigit = true) :
    readPosition? ('+' :: digits) =
      if Number.ofDigits digits ≤ largestPosition then some (Number.ofDigits digits)
      else none := by
  change (if digits ≠ [] ∧ digits.all Char.isDigit = true ∧ _ then _ else _) = _
  simp only [ne_eq, nonempty, not_false_eq_true, List.all_eq_true.mpr decimal, true_and]

/-- A position is decimal digits, perhaps behind a plus sign. -/
theorem readPosition?_eq_some_iff {text : List Char} :
    readPosition? text = some index ↔
      ∃ sign digits, (sign = [] ∨ sign = ['+']) ∧ text = sign ++ digits ∧ digits ≠ [] ∧
        (∀ c ∈ digits, c.isDigit = true) ∧ index = Number.ofDigits digits ∧
        index ≤ largestPosition := by
  constructor
  · intro read
    obtain ⟨sign, digits, signed, parts, same⟩ := exists_readPosition?_eq text
    rw [same] at read
    split at read
    · next readable =>
        cases read
        exact ⟨sign, digits, signed, parts, readable.1, List.all_eq_true.mp readable.2.1, rfl,
          readable.2.2⟩
    · cases read
  · rintro ⟨sign, digits, signed, rfl, nonempty, decimal, rfl, small⟩
    rcases signed with rfl | rfl
    · rw [List.nil_append, readPosition?_digits nonempty decimal, if_pos small]
    · rw [List.singleton_append, readPosition?_plus nonempty decimal, if_pos small]

/-- Behind a bracket, a step is read exactly where the text brings one. -/
theorem readBracket?_eq_some_iff {step : Step} :
    readBracket? group = some step ↔ Opens group [step] := by
  constructor
  · intro read
    simp only [readBracket?, Option.bind_eq_bind, Option.bind_eq_some_iff, Option.pure_def,
      Option.some.injEq] at read
    obtain ⟨inside, closed, index, position, rfl⟩ := read
    rw [List.isSuffixOf?_eq_some_iff_append_eq] at closed
    obtain ⟨sign, digits, signed, parts, nonempty, decimal, rfl, small⟩ :=
      readPosition?_eq_some_iff.mp position
    obtain ⟨front, behind, whole, blanks⟩ := Text.exists_blanks inside
    rw [parts] at whole
    rw [← closed, whole]
    obtain ⟨blankFront, blankBehind⟩ := List.forall_mem_append.mp blanks
    exact .position signed (.intro blankFront nonempty decimal blankBehind) small
  · intro opens
    cases opens with
    | @position sign _ _ signed isIndex small =>
        obtain @⟨front, digits, behind, blankFront, nonempty, decimal, blankBehind⟩ := isIndex
        have closed : [']'].isSuffixOf? (front ++ (sign ++ digits) ++ behind ++ [']']) =
            some (front ++ (sign ++ digits) ++ behind) :=
          List.isSuffixOf?_eq_some_iff_append_eq.mpr rfl
        have plain : ∀ c ∈ sign ++ digits, Text.isBlank c = false := by
          rw [List.forall_mem_append]
          refine ⟨?_, fun c digit => Text.isBlank_of_isDigit (decimal c digit)⟩
          rcases signed with rfl | rfl <;> simp [Text.isBlank]
        have position : readPosition? (sign ++ digits) = some (Number.ofDigits digits) :=
          readPosition?_eq_some_iff.mpr ⟨sign, digits, signed, rfl, nonempty, decimal, rfl, small⟩
        rw [readBracket?, closed, Option.bind_eq_bind, Option.bind_some,
          Text.trimmed_between blankFront blankBehind (Text.trimmed_of_forall plain), position]
        rfl

/-! ## Segments -/

/-- The positions of a segment are the steps that its brackets bring. -/
theorem mapM_readBracket?_eq_some_iff {groups : List (List Char)} {positions : List Step} :
    (groups.filter (· ≠ [])).mapM readBracket? = some positions ↔
      ∃ parts, List.Forall₂ Opens groups parts ∧ positions = parts.flatten := by
  induction groups generalizing positions with
  | nil => simp [eq_comm]
  | cons group rest ih =>
      simp only [List.forall₂_cons_left_iff]
      by_cases empty : group = []
      · subst empty
        rw [List.filter_cons_of_neg (by simp), ih]
        constructor
        · rintro ⟨parts, opens, rfl⟩
          exact ⟨[] :: parts, ⟨[], parts, .nothing, opens, rfl⟩, rfl⟩
        · rintro ⟨_, ⟨steps, parts, opensFirst, opens, rfl⟩, rfl⟩
          cases opensFirst with
          | nothing => exact ⟨parts, opens, rfl⟩
          | position _ isIndex _ => exact absurd rfl isIndex.ne_nil
      · rw [List.filter_cons_of_pos (by simpa using empty)]
        simp only [List.mapM_cons, Option.bind_eq_bind, Option.bind_eq_some_iff, Option.pure_def,
          Option.some.injEq, ih, readBracket?_eq_some_iff]
        constructor
        · rintro ⟨step, opensFirst, _, ⟨parts, opens, rfl⟩, rfl⟩
          exact ⟨[step] :: parts, ⟨[step], parts, opensFirst, opens, rfl⟩, rfl⟩
        · rintro ⟨_, ⟨steps, parts, opensFirst, opens, rfl⟩, rfl⟩
          cases opensFirst with
          | nothing => exact absurd rfl empty
          | @position sign _ index signed isIndex small =>
              exact ⟨.position index, .position signed isIndex small, parts.flatten,
                ⟨parts, opens, rfl⟩, rfl⟩

/-- Says which steps a segment spells: its name, unless that is empty, and what each of its brackets
brings. -/
def SegmentSpells (segment : List Char) (steps : List Step) : Prop :=
  ∃ name groups parts, '[' ∉ name ∧ List.Forall₂ Opens groups parts ∧
    segment = name ++ groups.flatMap ('[' :: ·) ∧ steps = named name ++ parts.flatten

/-- Every text is a name without brackets and what stands behind its brackets. -/
theorem exists_groups (segment : List Char) :
    ∃ name groups, (∀ text ∈ name :: groups, '[' ∉ text) ∧
      segment = name ++ groups.flatMap ('[' :: ·) := by
  induction segment with
  | nil => exact ⟨[], [], by simp, rfl⟩
  | cons c rest ih =>
      obtain ⟨name, groups, clean, rfl⟩ := ih
      by_cases bracket : c = '['
      · subst bracket
        exact ⟨[], name :: groups, List.forall_mem_cons.mpr ⟨List.not_mem_nil, clean⟩, rfl⟩
      · refine ⟨c :: name, groups, ?_, rfl⟩
        obtain ⟨noBracket, others⟩ := List.forall_mem_cons.mp clean
        refine List.forall_mem_cons.mpr ⟨?_, others⟩
        simpa [Ne.symm bracket] using noBracket

/-- A segment is read as the steps that it spells. -/
theorem segmentSteps?_eq_some_iff {segment : List Char} {steps : List Step} :
    segmentSteps? segment = some steps ↔ SegmentSpells segment steps := by
  constructor
  · intro read
    obtain ⟨name, groups, clean, rfl⟩ := exists_groups segment
    rw [segmentSteps?_groups clean, Option.map_eq_some_iff] at read
    obtain ⟨positions, readGroups, rfl⟩ := read
    obtain ⟨parts, opens, rfl⟩ := mapM_readBracket?_eq_some_iff.mp readGroups
    exact ⟨name, groups, parts, clean name List.mem_cons_self, opens, rfl, rfl⟩
  · rintro ⟨name, groups, parts, noBracket, opens, rfl, rfl⟩
    have clean : ∀ text ∈ name :: groups, '[' ∉ text := by
      refine List.forall_mem_cons.mpr ⟨noBracket, fun group member => ?_⟩
      obtain ⟨steps, -, opensGroup⟩ := exists_mem_of_forall₂ opens member
      exact opensGroup.noBracket
    rw [segmentSteps?_groups clean, mapM_readBracket?_eq_some_iff.mpr ⟨parts, opens, rfl⟩]
    rfl

/-! ## Paths -/

/-- The segments of a path: what stands between its dots, unless it is empty. -/
def segments (path : List Char) : List (List Char) :=
  (path.splitOn '.').filter (· ≠ [])

/-- Says which location a path spells: the steps of its segments, one after the other. -/
def Spells (path : List Char) (location : List Step) : Prop :=
  ∃ parts, List.Forall₂ SegmentSpells (segments path) parts ∧ location = parts.flatten

theorem pathSteps?_eq_some_iff {path : List Char} {location : List Step} :
    pathSteps? path = some location ↔ Spells path location := by
  change ((segments path).mapM segmentSteps?).bind (fun parts => some parts.flatten) = _ ↔ _
  simp only [Option.bind_eq_some_iff, mapM_eq_some_iff, segmentSteps?_eq_some_iff,
    Option.some.injEq, Spells, eq_comm (a := location)]

/-- A path finds what stands at the location that it spells. -/
theorem find?_eq_some_iff {document value : Json} {path : String} :
    document.find? path = some value ↔
      ∃ location, Spells path.toList location ∧ Located document location value := by
  simp only [find?, Option.bind_eq_bind, Option.bind_eq_some_iff, pathSteps?_eq_some_iff,
    walk?_eq_some_iff]

/-! ## Well-formed segments -/

/-- Says that a segment is a name without brackets, and groups behind it that are decimal digits
between blanks in brackets. -/
def IsWellFormed (segment : List Char) : Prop :=
  ∃ (name : List Char) (groups : List (List Char)), '[' ∉ name ∧
    (∀ group ∈ groups, ∃ index, IsIndex [] group index) ∧
    segment = name ++ groups.flatMap ('[' :: ·)

/-- Says that an opening bracket of a segment is followed by another one or by nothing, or else by a
plus sign behind blanks. -/
inductive IsSlack : List Char → Prop where
  | doubled (before behind : List Char) : IsSlack (before ++ '[' :: '[' :: behind)
  | unclosed (before : List Char) : IsSlack (before ++ ['['])
  | signed (before : List Char) {front : List Char}
      (blank : ∀ c ∈ front, Text.isBlank c = true) (behind : List Char) :
      IsSlack (before ++ '[' :: (front ++ '+' :: behind))

/-- What stands behind a bracket of a segment up to the next one is one of its groups. -/
theorem mem_groups {name : List Char} {groups : List (List Char)}
    (clean : ∀ text ∈ name :: groups, '[' ∉ text) (before first : List Char)
    (others : List (List Char)) (cleanBehind : ∀ text ∈ first :: others, '[' ∉ text)
    (same : name ++ groups.flatMap ('[' :: ·) =
      before ++ '[' :: (first ++ others.flatMap ('[' :: ·))) : first ∈ groups := by
  have pieces := congrArg (List.splitOn '[') same
  rw [splitOn_groups clean, List.splitOn_append_cons_self, splitOn_groups cleanBehind] at pieces
  obtain ⟨piece, rest, cut⟩ := List.exists_cons_of_ne_nil (List.splitOn_ne_nil '[' before)
  rw [cut, List.cons_append, List.cons.injEq] at pieces
  rw [pieces.2]
  exact List.mem_append_right _ List.mem_cons_self

/-- A slack segment has a group that is empty or holds a plus sign. -/
theorem IsSlack.exists_group {name : List Char} {groups : List (List Char)}
    (clean : ∀ text ∈ name :: groups, '[' ∉ text)
    (slack : IsSlack (name ++ groups.flatMap ('[' :: ·))) :
    ∃ group ∈ groups, group = [] ∨ '+' ∈ group := by
  generalize whole : name ++ groups.flatMap ('[' :: ·) = segment at slack
  cases slack with
  | doubled before behind =>
      obtain ⟨next, others, cleanBehind, rfl⟩ := exists_groups behind
      refine ⟨[], mem_groups clean before [] (next :: others) ?_ whole, .inl rfl⟩
      exact List.forall_mem_cons.mpr ⟨List.not_mem_nil, cleanBehind⟩
  | unclosed before =>
      refine ⟨[], mem_groups clean before [] [] ?_ whole, .inl rfl⟩
      exact List.forall_mem_singleton.mpr List.not_mem_nil
  | @signed before front blank behind =>
      obtain ⟨next, others, cleanBehind, rfl⟩ := exists_groups behind
      obtain ⟨noBracket, later⟩ := List.forall_mem_cons.mp cleanBehind
      have noneInFront : '[' ∉ front := fun member => absurd (blank '[' member) (by decide)
      refine ⟨front ++ '+' :: next,
        mem_groups clean before (front ++ '+' :: next) others ?_ ?_, .inr (by simp)⟩
      · refine List.forall_mem_cons.mpr ⟨?_, later⟩
        simp [noneInFront, noBracket]
      · rw [whole, List.append_assoc, List.cons_append]

/-- A segment with an empty group is slack. -/
theorem isSlack_of_nil_mem {name : List Char} {groups : List (List Char)} (empty : [] ∈ groups) :
    IsSlack (name ++ groups.flatMap ('[' :: ·)) := by
  obtain ⟨earlier, later, rfl⟩ := List.append_of_mem empty
  rw [List.flatMap_append, List.flatMap_cons, ← List.append_assoc]
  cases later with
  | nil => exact .unclosed _
  | cons next rest => exact .doubled _ _

/-- A segment with a group that has a plus sign behind blanks is slack. -/
theorem isSlack_of_isIndex {name group : List Char} {groups : List (List Char)} {index : Nat}
    (member : group ∈ groups) (isIndex : IsIndex ['+'] group index) :
    IsSlack (name ++ groups.flatMap ('[' :: ·)) := by
  obtain ⟨blankFront, -, -, -⟩ := isIndex
  obtain ⟨earlier, later, rfl⟩ := List.append_of_mem member
  rw [List.flatMap_append, List.flatMap_cons, ← List.append_assoc]
  simp only [List.cons_append, List.append_assoc]
  rw [← List.append_assoc]
  exact .signed _ blankFront _

/-- The groups of a well-formed segment are digits, so none of them is empty or signed. -/
theorem IsWellFormed.not_isSlack {segment : List Char} (wellFormed : IsWellFormed segment) :
    ¬ IsSlack segment := by
  intro slack
  obtain ⟨name, groups, noBracket, indices, rfl⟩ := wellFormed
  have clean : ∀ text ∈ name :: groups, '[' ∉ text := by
    refine List.forall_mem_cons.mpr ⟨noBracket, fun group member => ?_⟩
    obtain ⟨index, isIndex⟩ := indices group member
    exact isIndex.not_mem List.not_mem_nil (by decide) (by decide) (by decide)
  obtain ⟨group, member, faulty⟩ := slack.exists_group clean
  obtain ⟨index, isIndex⟩ := indices group member
  rcases faulty with empty | plus
  · exact isIndex.ne_nil empty
  · exact isIndex.not_mem List.not_mem_nil (by decide) (by decide) (by decide) plus

/-- What opens a group of a segment that is not slack is decimal digits without a sign. -/
theorem exists_isIndex_of_opens {name group : List Char} {groups : List (List Char)}
    {steps : List Step} (tight : ¬ IsSlack (name ++ groups.flatMap ('[' :: ·)))
    (member : group ∈ groups) (opens : Opens group steps) : ∃ index, IsIndex [] group index := by
  cases opens with
  | nothing => exact absurd (isSlack_of_nil_mem member) tight
  | @position sign _ index signed isIndex small =>
      rcases signed with rfl | rfl
      · exact ⟨index, isIndex⟩
      · exact absurd (isSlack_of_isIndex member isIndex) tight

/-- A segment that spells steps is well-formed unless it is slack. -/
theorem SegmentSpells.isWellFormed_iff {segment : List Char} {steps : List Step}
    (spells : SegmentSpells segment steps) : IsWellFormed segment ↔ ¬ IsSlack segment := by
  refine ⟨IsWellFormed.not_isSlack, fun tight => ?_⟩
  obtain ⟨name, groups, parts, noBracket, opens, rfl, -⟩ := spells
  refine ⟨name, groups, noBracket, fun group member => ?_, rfl⟩
  obtain ⟨steps, -, opensGroup⟩ := exists_mem_of_forall₂ opens member
  exact exists_isIndex_of_opens tight member opensGroup

/-! ## What a path finds -/

/-- A path finds a value if and only if it spells a location where the value stands.  Each of its
segments is then well-formed, unless it has an opening bracket that opens nothing or one in front of
a plus sign. -/
theorem find?_spells (document value : Json) (path : String) :
    (document.find? path = some value ↔
      ∃ location, Spells path.toList location ∧ Located document location value) ∧
    (document.find? path = some value →
      ∀ segment ∈ segments path.toList, IsWellFormed segment ↔ ¬ IsSlack segment) := by
  refine ⟨find?_eq_some_iff, fun found segment member => ?_⟩
  obtain ⟨location, ⟨parts, spells, -⟩, -⟩ := find?_eq_some_iff.mp found
  obtain ⟨steps, -, spellsSegment⟩ := exists_mem_of_forall₂ spells member
  exact spellsSegment.isWellFormed_iff

/-- A document with a list of one text under a name. -/
def zoneList : Json :=
  .object [("zones", .array [.string "east"])]

/-- Segments with a bracket too many, one that is not closed and an index with a sign find values,
and none of them is well-formed. -/
theorem find?_slack_zoneList :
    (zoneList.find? "zones[[0]" = some (.string "east") ∧
      segments "zones[[0]".toList = ["zones[[0]".toList] ∧ ¬ IsWellFormed "zones[[0]".toList) ∧
    (zoneList.find? "zones[" = some (.array [.string "east"]) ∧
      segments "zones[".toList = ["zones[".toList] ∧ ¬ IsWellFormed "zones[".toList) ∧
    (zoneList.find? "zones[+0]" = some (.string "east") ∧
      segments "zones[+0]".toList = ["zones[+0]".toList] ∧
      ¬ IsWellFormed "zones[+0]".toList) := by
  refine ⟨⟨rfl, rfl, fun wellFormed => ?_⟩, ⟨rfl, rfl, fun wellFormed => ?_⟩,
    ⟨rfl, rfl, fun wellFormed => ?_⟩⟩
  · exact wellFormed.not_isSlack (.doubled "zones".toList "0]".toList)
  · exact wellFormed.not_isSlack (.unclosed "zones".toList)
  · exact wellFormed.not_isSlack (.signed "zones".toList (List.forall_mem_nil _) "0]".toList)

end Json

end DeployTarget
