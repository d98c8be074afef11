import DeployTarget.Field.Value
import DeployTarget.Proofs.PathSteps

/-!
# Hosts in normal form

Cutting texts at their commas leaves hosts: texts that are not empty, have no blanks around them
and hold no comma.  A list of hosts stays as it is.  Cutting goes through a list entry by entry
and through an entry comma by comma, so it makes no difference whether hosts stand in a list or in
one text, and what comes out are the texts between the commas in their order.
-/

namespace DeployTarget

theorem not_mem_of_mem_splitOn {separator : Char} {text piece : List Char}
    (member : piece ∈ text.splitOn separator) : separator ∉ piece := by
  induction text generalizing piece with
  | nil =>
      rw [List.splitOn_nil, List.mem_singleton] at member
      simp [member]
  | cons c rest ih =>
      rw [List.splitOn_cons_eq_if_modifyHead] at member
      by_cases cut : (c == separator) = true
      · rw [if_pos cut, List.mem_cons] at member
        rcases member with rfl | later
        · exact List.not_mem_nil
        · exact ih later
      · rw [if_neg cut] at member
        obtain ⟨first, others, pieces⟩ := List.exists_cons_of_ne_nil
          (List.splitOn_ne_nil separator rest)
        rw [pieces, List.modifyHead_cons, List.mem_cons] at member
        rcases member with rfl | later
        · have inFirst : separator ∉ first := ih (pieces ▸ List.mem_cons_self)
          simp only [List.mem_cons, not_or]
          exact ⟨fun same => cut (beq_iff_eq.mpr same.symm), inFirst⟩
        · exact ih (pieces ▸ List.mem_cons_of_mem _ later)

namespace Text

variable {text : List Char} {c : Char}

theorem mem_of_mem_trimmed (member : c ∈ trimmed text) : c ∈ text := by
  obtain ⟨front, behind, parts, -⟩ := exists_blanks text
  rw [parts]
  exact List.mem_append_left _ (List.mem_append_right _ member)

/-- Trimming a second time changes nothing. -/
@[simp]
theorem trimmed_trimmed (text : List Char) : trimmed (trimmed text) = trimmed text := by
  rw [trimmed_eq_self_iff]
  constructor
  · intro c first
    have begins := List.head?_dropWhile_not isBlank text
    have kept : trimmed text <+: text.dropWhile isBlank := List.rdropWhile_prefix isBlank _
    obtain ⟨behind, parts⟩ := kept
    rw [← parts, List.head?_append, first] at begins
    exact begins
  · intro c last
    have ends := List.head?_dropWhile_not isBlank (text.dropWhile isBlank).reverse
    rw [trimmed, trimEnd, List.getLast?_reverse] at last
    rw [last] at ends
    exact ends

end Text

namespace HostList

/-- Says that a text is the name of one host, as it is kept. -/
structure IsHost (text : String) : Prop where
  nonempty : text ≠ ""
  trimmed : Text.trim text = text
  single : separator ∉ text.toList

variable {text : String} {entries : List String}

/-- Cutting a text leaves hosts. -/
theorem isHost_of_mem_splitText {host : String} (member : host ∈ splitText text) :
    IsHost host := by
  simp only [splitText, List.mem_map, List.mem_filter, decide_eq_true_eq] at member
  obtain ⟨_, ⟨⟨piece, cut, rfl⟩, nonempty⟩, rfl⟩ := member
  refine ⟨?_, ?_, ?_⟩
  · intro empty
    exact nonempty (String.ofList_eq_empty_iff.mp empty)
  · rw [Text.trim, String.toList_ofList, Text.trimmed_trimmed]
  · rw [String.toList_ofList]
    intro inside
    exact not_mem_of_mem_splitOn cut (Text.mem_of_mem_trimmed inside)

/-- A text without commas is one host, unless it is blank. -/
theorem splitText_of_single (single : separator ∉ text.toList) :
    splitText text = [Text.trim text].filter (· ≠ "") := by
  rw [splitText, List.splitOn_eq_singleton single]
  by_cases blank : Text.trimmed text.toList = []
  · simp [Text.trim, blank]
  · simp [Text.trim, blank]

theorem splitText_of_isHost (host : IsHost text) : splitText text = [text] := by
  rw [splitText_of_single host.single, host.trimmed]
  simp [host.nonempty]

/-- A text with a comma is cut in front of the comma and behind it. -/
theorem splitText_append (first second : String) :
    splitText (first ++ "," ++ second) = splitText first ++ splitText second := by
  have parts : (first ++ "," ++ second).toList = first.toList ++ separator :: second.toList := by
    simp [separator]
  simp only [splitText, parts, List.splitOn_append_cons_self, List.map_append, List.filter_append]

/-- Cutting texts that are joined by commas is cutting each of them. -/
theorem splitText_intercalate (entries : List String) :
    splitText (",".intercalate entries) = splitAll entries := by
  induction entries with
  | nil => decide
  | cons entry rest ih =>
      cases rest with
      | nil => simp [splitAll]
      | cons next others =>
          rw [String.intercalate_cons_cons, splitText_append, ih]
          rfl

theorem splitAll_append (first second : List String) :
    splitAll (first ++ second) = splitAll first ++ splitAll second :=
  List.flatMap_append

theorem isHost_of_mem_splitAll {host : String} (member : host ∈ splitAll entries) :
    IsHost host := by
  obtain ⟨entry, -, cut⟩ := List.mem_flatMap.mp member
  exact isHost_of_mem_splitText cut

/-- Hosts stay as they are. -/
theorem splitAll_of_isHost (hosts : ∀ entry ∈ entries, IsHost entry) :
    splitAll entries = entries := by
  induction entries with
  | nil => rfl
  | cons entry rest ih =>
      obtain ⟨host, others⟩ := List.forall_mem_cons.mp hosts
      calc
        splitAll (entry :: rest) = splitText entry ++ splitAll rest := rfl
        _ = entry :: rest := by rw [splitText_of_isHost host, ih others, List.singleton_append]

/-- Of texts without commas, those that are not blank are the hosts. -/
theorem splitAll_of_single (single : ∀ entry ∈ entries, separator ∉ entry.toList) :
    splitAll entries = (entries.map Text.trim).filter (· ≠ "") := by
  induction entries with
  | nil => rfl
  | cons entry rest ih =>
      obtain ⟨first, others⟩ := List.forall_mem_cons.mp single
      calc
        splitAll (entry :: rest) = splitText entry ++ splitAll rest := rfl
        _ = [Text.trim entry].filter (· ≠ "") ++ (rest.map Text.trim).filter (· ≠ "") := by
          rw [splitText_of_single first, ih others]
        _ = ((entry :: rest).map Text.trim).filter (· ≠ "") := by
          rw [← List.filter_append, List.map_cons, List.singleton_append]

/-- Texts that are joined in groups are cut as if they were not. -/
theorem splitAll_intercalate (groups : List (List String)) :
    splitAll (groups.map (",".intercalate ·)) = splitAll groups.flatten := by
  induction groups with
  | nil => rfl
  | cons group rest ih =>
      calc
        splitAll ((group :: rest).map (",".intercalate ·)) =
            splitText (",".intercalate group) ++ splitAll (rest.map (",".intercalate ·)) := rfl
        _ = splitAll group ++ splitAll rest.flatten := by rw [splitText_intercalate, ih]
        _ = splitAll (group :: rest).flatten := by rw [List.flatten_cons, splitAll_append]

/-- Cutting is a normal form.  It leaves hosts, keeps exactly the lists of hosts, goes through a
list entry by entry, and does not tell texts in a list from the same texts joined by commas.
However texts without commas are joined to entries, the hosts are those texts in their order,
without the blanks around them and without the blank ones. -/
theorem splitAll_isNormalForm (entries : List String) :
    (∀ host ∈ splitAll entries, IsHost host) ∧
      (splitAll entries = entries ↔ ∀ entry ∈ entries, IsHost entry) ∧
      splitAll (splitAll entries) = splitAll entries ∧
      (∀ others, splitAll (entries ++ others) = splitAll entries ++ splitAll others) ∧
      (joined (",".intercalate entries)).split = (listed entries).split ∧
      FieldValue.isBlank (joined (",".intercalate entries)) =
        FieldValue.isBlank (listed entries) ∧
      ∀ groups : List (List String), entries = groups.map (",".intercalate ·) →
        (∀ piece ∈ groups.flatten, separator ∉ piece.toList) →
        splitAll entries = (groups.flatten.map Text.trim).filter (· ≠ "") := by
  have hosts : ∀ host ∈ splitAll entries, IsHost host := fun _ => isHost_of_mem_splitAll
  have same : (joined (",".intercalate entries)).split = (listed entries).split := by
    calc
      (joined (",".intercalate entries)).split = splitText (",".intercalate entries) :=
        List.flatMap_singleton _ _
      _ = (listed entries).split := splitText_intercalate entries
  refine ⟨hosts, ?_, splitAll_of_isHost hosts, splitAll_append entries, same, ?_, ?_⟩
  · constructor
    · intro kept entry member
      exact hosts entry (kept.symm ▸ member)
    · exact splitAll_of_isHost
  · exact congrArg List.isEmpty same
  · intro groups joinedGroups single
    rw [joinedGroups, splitAll_intercalate, splitAll_of_single single]

example : splitAll ["a, b", " ,c,,"] = ["a", "b", "c"] := by decide

end HostList

end DeployTarget
