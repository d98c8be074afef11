import Mathlib.Data.List.Forall2

/-!
# Sequences of reads

Reading the items of a list one after the other succeeds if and only if every item is read, and the
results then stand to the items as one result stands to its item.  So what is known about reading
one item carries over to the list, and what came out of the list came out of one of its items.
-/

namespace DeployTarget

variable {α β γ : Type} {items : List α} {results : List β}

/-- Where lists are related item by item, every item of the one has its counterpart in the
other. -/
theorem exists_mem_of_forall₂ {relates : α → β → Prop}
    (related : List.Forall₂ relates items results) {item : α} (member : item ∈ items) :
    ∃ result ∈ results, relates item result := by
  induction related with
  | nil => cases member
  | @cons _ result _ _ first _ ih =>
      rcases List.mem_cons.mp member with rfl | later
      · exact ⟨result, List.mem_cons_self, first⟩
      · obtain ⟨other, listed, behind⟩ := ih later
        exact ⟨other, List.mem_cons_of_mem _ listed, behind⟩

variable {read : α → Option β}

/-- A sequence of reads succeeds if and only if each of them does. -/
theorem mapM_eq_some_iff :
    items.mapM read = some results ↔
      List.Forall₂ (fun item result => read item = some result) items results := by
  induction items generalizing results with
  | nil => simp [eq_comm]
  | cons item rest ih =>
      simp only [List.mapM_cons, Option.bind_eq_bind, Option.bind_eq_some_iff, Option.pure_def,
        Option.some.injEq, List.forall₂_cons_left_iff, ih]
      constructor
      · rintro ⟨first, readFirst, others, readRest, rfl⟩
        exact ⟨first, others, readFirst, readRest, rfl⟩
      · rintro ⟨first, others, readFirst, readRest, rfl⟩
        exact ⟨first, readFirst, others, readRest, rfl⟩

/-- Items that are all read as a function says are read as the list that it gives. -/
theorem mapM_eq_some_map {result : α → β}
    (each : ∀ item ∈ items, read item = some (result item)) :
    items.mapM read = some (items.map result) := by
  rw [mapM_eq_some_iff, List.forall₂_map_right_iff, List.forall₂_same]
  exact each

/-- What one reading of a list yields, another one yields if it agrees item by item. -/
theorem mapM_eq_some_of_forall {read : α → Option γ} (other : β → Option γ) (view : α → β)
    (agree : ∀ item result, read item = some result → other (view item) = some result)
    {results : List γ} (succeeds : items.mapM read = some results) :
    (items.map view).mapM other = some results := by
  rw [mapM_eq_some_iff, List.forall₂_map_left_iff]
  exact (mapM_eq_some_iff.mp succeeds).imp agree

/-- Every item of a list that was read has its result. -/
theorem exists_of_mapM_eq_some (succeeds : items.mapM read = some results) {item : α}
    (member : item ∈ items) : ∃ result ∈ results, read item = some result :=
  exists_mem_of_forall₂ (mapM_eq_some_iff.mp succeeds) member

/-- Whatever a sequence of reads yields comes from one of them. -/
theorem exists_of_mem_mapM (succeeds : items.mapM read = some results) :
    ∀ result ∈ results, ∃ item ∈ items, read item = some result := by
  intro result member
  have backwards : List.Forall₂ (fun result item => read item = some result) results items :=
    (mapM_eq_some_iff.mp succeeds).flip
  exact exists_mem_of_forall₂ backwards member

end DeployTarget
