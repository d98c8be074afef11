import DeployTarget.ConnectorStore
import DeployTarget.Proofs.Lookup
import Mathlib.Data.Finset.Card
import Mathlib.Data.List.Induction

/-!
# Connectors after a history of writes

A store is what was written to it, first to last.  A reference names one place in it, or none if
its identifier is empty or dotted, and what is found at a place is the connector that was written
there last.  Writing to a place changes what is found there and nothing else, so the store is as
large as there are places that were written to.
-/

namespace DeployTarget

namespace ConnectorRequest

variable {request : ConnectorRequest} {scope : Scope} {identifier : String}

/-- Says that a reference is read as an identifier in a scope.  A mark in front of it lifts the
scope, to the account or else to the organisation, and one mark is removed. -/
inductive Names (request : ConnectorRequest) : Scope → String → Prop
  | account {identifier : String} (marked : request.reference = "account." ++ identifier) :
      Names request ⟨request.scope.account, none, none⟩ identifier
  | organization {identifier : String} (marked : request.reference = "org." ++ identifier) :
      Names request ⟨request.scope.account, request.scope.organization, none⟩ identifier
  | plain (noAccount : ∀ identifier, request.reference ≠ "account." ++ identifier)
      (noOrganization : ∀ identifier, request.reference ≠ "org." ++ identifier) :
      Names request request.scope request.reference

/-- Says that no connector can be asked for under an identifier: it is empty or dotted. -/
def IsBroken (identifier : String) : Prop :=
  identifier = "" ∨ '.' ∈ identifier.toList

instance (identifier : String) : Decidable (IsBroken identifier) :=
  inferInstanceAs (Decidable (_ ∨ _))

/-- A reference is lifted to what it names. -/
theorem names_lift (request : ConnectorRequest) :
    request.Names request.lift.1 (String.ofList request.lift.2) := by
  have marked {mark : String} {rest : List Char}
      (found : mark.toList.isPrefixOf? request.reference.toList = some rest) :
      request.reference = mark ++ String.ofList rest := by
    rw [List.isPrefixOf?_eq_some_iff_append_eq] at found
    rw [← String.toList_inj, String.toList_append, String.toList_ofList, found]
  have unmarked {mark : String}
      (missing : mark.toList.isPrefixOf? request.reference.toList = none) (identifier : String) :
      request.reference ≠ mark ++ identifier := by
    intro same
    have found : mark.toList.isPrefixOf? request.reference.toList = some identifier.toList := by
      rw [List.isPrefixOf?_eq_some_iff_append_eq, same, String.toList_append]
    rw [missing] at found
    cases found
  cases account : accountMark.toList.isPrefixOf? request.reference.toList with
  | some identifier =>
      have lifted : request.lift = (⟨request.scope.account, none, none⟩, identifier) := by
        simp only [lift, account]
      rw [lifted]
      exact .account (marked account)
  | none =>
      cases organization : organizationMark.toList.isPrefixOf? request.reference.toList with
      | some identifier =>
          have lifted : request.lift =
              (⟨request.scope.account, request.scope.organization, none⟩, identifier) := by
            simp only [lift, account, organization]
          rw [lifted]
          exact .organization (marked organization)
      | none =>
          have lifted : request.lift = (request.scope, request.reference.toList) := by
            simp only [lift, account, organization]
          rw [lifted, String.ofList_toList]
          exact .plain (unmarked account) (unmarked organization)

/-- Every reference names a place, and that place is asked for unless the identifier is broken. -/
theorem exists_names_place (request : ConnectorRequest) :
    ∃ scope identifier, request.Names scope identifier ∧
      request.place = if IsBroken identifier then .error (.invalidReference request.reference)
        else .ok ⟨scope, identifier⟩ := by
  refine ⟨request.lift.1, String.ofList request.lift.2, request.names_lift, ?_⟩
  simp only [place, IsBroken, String.ofList_eq_empty_iff, String.toList_ofList]

end ConnectorRequest

namespace ConnectorStore

open ConnectorRequest

/-- The place that a connector is written to. -/
def placeOf (entry : Scope × Connector) : ConnectorPlace :=
  ⟨entry.1, entry.2.identifier⟩

/-- The store after a history of writes, first to last. -/
def written (history : List (Scope × Connector)) : ConnectorStore :=
  history.foldl (fun store entry => store.insert entry.1 entry.2) empty

/-- Says that a connector is the last one that a history writes to a place. -/
def WritesLast (history : List (Scope × Connector)) (place : ConnectorPlace)
    (connector : Connector) : Prop :=
  ∃ before scope behind, history = before ++ (scope, connector) :: behind ∧
    placeOf (scope, connector) = place ∧ ∀ later ∈ behind, placeOf later ≠ place

variable {history : List (Scope × Connector)} {place : ConnectorPlace} {connector : Connector}

theorem written_concat (history : List (Scope × Connector)) (entry : Scope × Connector) :
    written (history ++ [entry]) = (written history).insert entry.1 entry.2 := by
  rw [written, List.foldl_concat]
  rfl

/-- A write decides what is found at its place and leaves all other places alone. -/
theorem get?_insert (store : ConnectorStore) (scope : Scope) (connector : Connector) :
    (store.insert scope connector).connectors.get? place =
      if place = placeOf (scope, connector) then some connector
      else store.connectors.get? place :=
  store.connectors.get?_insert _ _ _

/-- The last write to a place is the last write of all, or it comes before a write elsewhere. -/
theorem writesLast_concat_iff {entry : Scope × Connector} :
    WritesLast (history ++ [entry]) place connector ↔
      placeOf entry = place ∧ entry.2 = connector ∨
        placeOf entry ≠ place ∧ WritesLast history place connector := by
  constructor
  · rintro ⟨before, scope, behind, parts, here, later⟩
    rcases List.eq_nil_or_concat behind with rfl | ⟨middle, last, rfl⟩
    · obtain ⟨-, rfl⟩ := List.append_singleton_inj.mp parts
      exact .inl ⟨here, rfl⟩
    · rw [List.concat_eq_append, List.forall_mem_append, List.forall_mem_singleton] at later
      rw [List.concat_eq_append, ← List.cons_append, ← List.append_assoc] at parts
      obtain ⟨rfl, rfl⟩ := List.append_singleton_inj.mp parts
      exact .inr ⟨later.2, before, scope, middle, rfl, here, later.1⟩
  · rintro (⟨here, rfl⟩ | ⟨elsewhere, before, scope, behind, rfl, here, later⟩)
    · exact ⟨history, entry.1, [], rfl, here, nofun⟩
    · refine ⟨before, scope, behind ++ [entry], by simp, here, ?_⟩
      rw [List.forall_mem_append, List.forall_mem_singleton]
      exact ⟨later, elsewhere⟩

/-- What is found at a place is the last connector that was written there. -/
theorem get?_written_eq_some_iff :
    (written history).connectors.get? place = some connector ↔
      WritesLast history place connector := by
  induction history using List.reverseRecOn with
  | nil =>
      constructor
      · intro found
        cases found
      · rintro ⟨before, scope, behind, parts, -⟩
        simp at parts
  | append_singleton history entry ih =>
      rw [written_concat, get?_insert, writesLast_concat_iff]
      by_cases here : place = placeOf entry
      · rw [if_pos here, Option.some.injEq]
        exact ⟨fun same => .inl ⟨here.symm, same⟩,
          fun last => last.elim And.right fun other => absurd here.symm other.1⟩
      · rw [if_neg here, ih]
        exact ⟨fun last => .inr ⟨Ne.symm here, last⟩,
          fun last => last.elim (fun same => absurd same.1.symm here) And.right⟩

/-- Nothing is found at a place that was not written to. -/
theorem get?_written_eq_none_iff :
    (written history).connectors.get? place = none ↔
      ∀ entry ∈ history, placeOf entry ≠ place := by
  induction history using List.reverseRecOn with
  | nil => exact ⟨nofun, fun _ => rfl⟩
  | append_singleton history entry ih =>
      rw [written_concat, get?_insert, List.forall_mem_append, List.forall_mem_singleton, ← ih]
      by_cases here : place = placeOf entry
      · rw [if_pos here]
        exact ⟨nofun, fun other => absurd here.symm other.2⟩
      · rw [if_neg here]
        exact ⟨fun missing => ⟨missing, Ne.symm here⟩, And.left⟩

theorem mem_keys_written :
    place ∈ (written history).connectors.keys ↔ place ∈ history.map placeOf := by
  rw [← OrderedMap.contains_iff_mem_keys, OrderedMap.contains, Option.isSome_iff_ne_none, ne_eq,
    get?_written_eq_none_iff]
  simp

/-- A store is as large as there are places that were written to. -/
theorem size_written (history : List (Scope × Connector)) :
    (written history).size = (history.map placeOf).toFinset.card := by
  have sameKeys :
      (written history).connectors.keys.toFinset = (history.map placeOf).toFinset := by
    ext place
    rw [List.mem_toFinset, List.mem_toFinset, mem_keys_written]
  calc
    (written history).size = (written history).connectors.keys.length :=
      (List.length_map _).symm
    _ = (written history).connectors.keys.toFinset.card :=
      (List.toFinset_card_of_nodup (written history).connectors.distinct).symm
    _ = (history.map placeOf).toFinset.card := by rw [sameKeys]

/-- A store answers as the history of its writes says.  Each reference names an identifier in a
scope.  It is refused if and only if the identifier is empty or dotted; else the connector is
found that was written last with this identifier at this scope, and none if there was no such
write.  A write to any other place leaves the answer as it is, and the size of the store is the
number of places that were written to. -/
theorem get_written (history : List (Scope × Connector)) (request : ConnectorRequest) :
    let store := written history
    (∃ scope identifier, request.Names scope identifier ∧
      (store.get request = .error (.invalidReference request.reference) ↔ IsBroken identifier) ∧
      (¬ IsBroken identifier →
        (∀ connector, store.get request = .ok (some connector) ↔
          WritesLast history ⟨scope, identifier⟩ connector) ∧
        (store.get request = .ok none ↔
          ∀ entry ∈ history, placeOf entry ≠ ⟨scope, identifier⟩)) ∧
      ∀ other connector, placeOf (other, connector) ≠ ⟨scope, identifier⟩ →
        (store.insert other connector).get request = store.get request) ∧
    store.size = (history.map placeOf).toFinset.card := by
  intro store
  refine ⟨?_, size_written history⟩
  obtain ⟨scope, identifier, names, place⟩ := request.exists_names_place
  have answer (store : ConnectorStore) : store.get request =
      if IsBroken identifier then .error (.invalidReference request.reference)
      else .ok (store.connectors.get? ⟨scope, identifier⟩) := by
    rw [get, place]
    split <;> rfl
  refine ⟨scope, identifier, names, ?_, ?_, ?_⟩
  · rw [answer]
    split
    · next broken => exact iff_of_true rfl broken
    · next sound => exact iff_of_false (by simp) sound
  · intro sound
    rw [answer, if_neg sound]
    constructor
    · intro connector
      rw [Except.ok.injEq, get?_written_eq_some_iff]
    · rw [Except.ok.injEq, get?_written_eq_none_iff]
  · intro other connector elsewhere
    rw [answer, answer, get?_insert, if_neg elsewhere.symm]

end ConnectorStore

end DeployTarget
