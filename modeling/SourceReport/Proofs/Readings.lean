import Mathlib.Data.List.Forall2

/-!
# Readings

A list is read item by item, up to the first one that cannot be read. Whether a reading ends in a
certain kind of error is decided by the items before it and by that one.
-/

namespace SourceReport

/-!
# The first part that is wrong
-/

/-- Going through the items, all of them good, a bad one is reached. -/
inductive Reaches {α : Type} (good bad : α → Prop) : List α → Prop
  | here {item : α} {rest : List α} : bad item → Reaches good bad (item :: rest)
  | next {item : α} {rest : List α} :
      good item → Reaches good bad rest → Reaches good bad (item :: rest)

namespace Reaches

variable {α : Type} {good bad : α → Prop} {item : α} {rest : List α}

theorem not_nil : ¬ Reaches good bad [] := by
  rintro ⟨⟩

theorem cons_iff :
    Reaches good bad (item :: rest) ↔ bad item ∨ good item ∧ Reaches good bad rest := by
  constructor
  · rintro (reached | ⟨fine, later⟩)
    · exact Or.inl reached
    · exact Or.inr ⟨fine, later⟩
  · rintro (reached | ⟨fine, later⟩)
    · exact .here reached
    · exact .next fine later

theorem exists_mem {items : List α} (reached : Reaches good bad items) :
    ∃ item ∈ items, bad item := by
  induction reached with
  | here wrong => exact ⟨_, List.mem_cons_self, wrong⟩
  | next _ _ ih =>
      rcases ih with ⟨item, member, wrong⟩
      exact ⟨item, List.mem_cons_of_mem _ member, wrong⟩

theorem congr {other wrong : α → Prop} {items : List α}
    (goods : ∀ item ∈ items, good item ↔ other item)
    (bads : ∀ item ∈ items, bad item ↔ wrong item) :
    Reaches good bad items ↔ Reaches other wrong items := by
  induction items with
  | nil => exact ⟨fun reached => absurd reached not_nil, fun reached => absurd reached not_nil⟩
  | cons item rest ih =>
      rw [List.forall_mem_cons] at goods bads
      rw [cons_iff, cons_iff, goods.1, bads.1, ih goods.2 bads.2]

end Reaches

theorem map_eq_error_iff {α β ε : Type} {f : α → β} {result : Except ε α} {error : ε} :
    result.map f = .error error ↔ result = .error error := by
  cases result with
  | error failure => simp only [Except.map, Except.error.injEq]
  | ok value => simp only [Except.map, reduceCtorEq]

theorem map_eq_ok_iff {α β ε : Type} {f : α → β} {result : Except ε α} {value : β} :
    result.map f = .ok value ↔ ∃ found, result = .ok found ∧ f found = value := by
  cases result with
  | error failure => simp [Except.map]
  | ok found => simp [Except.map]

theorem bind_eq_error_iff {α β ε : Type} {f : α → Except ε β} {result : Except ε α} {error : ε} :
    (result >>= f) = .error error ↔
      result = .error error ∨ ∃ value, result = .ok value ∧ f value = .error error := by
  cases result with
  | error failure => simp [bind, Except.bind]
  | ok value => simp [bind, Except.bind]

theorem bind_eq_ok_iff {α β ε : Type} {f : α → Except ε β} {result : Except ε α} {value : β} :
    (result >>= f) = .ok value ↔ ∃ found, result = .ok found ∧ f found = .ok value := by
  cases result with
  | error failure => simp [bind, Except.bind]
  | ok found => simp [bind, Except.bind]

section Reading

variable {α β ε : Type} (f : α → Except ε β) {item : α}

theorem mapM_cons_of_error {error : ε} (first : f item = .error error) (rest : List α) :
    (item :: rest).mapM f = .error error := by
  rw [List.mapM_cons, first]
  rfl

theorem mapM_cons_of_ok {value : β} (first : f item = .ok value) (rest : List α) :
    (item :: rest).mapM f = (rest.mapM f).map (value :: ·) := by
  rw [List.mapM_cons, first]
  rfl

/-- Items are read up to the first one that cannot be read. -/
theorem exists_mapM_eq_error_iff {κ : Type} (wrong : κ → ε) (items : List α) :
    (∃ reason, items.mapM f = .error (wrong reason)) ↔
      Reaches (fun item => ∃ value, f item = .ok value)
        (fun item => ∃ reason, f item = .error (wrong reason)) items := by
  induction items with
  | nil =>
      constructor
      · rintro ⟨reason, failed⟩
        cases failed
      · intro reached
        exact absurd reached Reaches.not_nil
  | cons item rest ih =>
      rw [Reaches.cons_iff, ← ih]
      cases first : f item with
      | error failure =>
          simp only [mapM_cons_of_error f first, Except.error.injEq]
          constructor
          · intro stopped
            exact Or.inl stopped
          · rintro (stopped | ⟨⟨value, read⟩, _⟩)
            · exact stopped
            · cases read
      | ok value =>
          simp only [mapM_cons_of_ok f first, map_eq_error_iff]
          constructor
          · intro later
            exact Or.inr ⟨⟨value, rfl⟩, later⟩
          · rintro (⟨reason, failed⟩ | ⟨_, later⟩)
            · cases failed
            · exact later

theorem mapM_eq_ok_of_forall {items : List α} (h : ∀ item ∈ items, ∃ value, f item = .ok value) :
    ∃ values, items.mapM f = .ok values := by
  induction items with
  | nil => exact ⟨[], rfl⟩
  | cons item rest ih =>
      rw [List.forall_mem_cons] at h
      rcases h.1 with ⟨value, first⟩
      rcases ih h.2 with ⟨values, others⟩
      refine ⟨value :: values, ?_⟩
      rw [mapM_cons_of_ok f first, others]
      rfl

theorem forall₂_of_mapM_eq_ok {items : List α} {values : List β} (h : items.mapM f = .ok values) :
    List.Forall₂ (fun item value => f item = .ok value) items values := by
  induction items generalizing values with
  | nil =>
      cases h
      exact .nil
  | cons item rest ih =>
      cases first : f item with
      | error failure => cases (mapM_cons_of_error f first rest).symm.trans h
      | ok value =>
          rw [mapM_cons_of_ok f first] at h
          cases others : rest.mapM f with
          | error failure =>
              rw [others] at h
              cases h
          | ok found =>
              rw [others] at h
              cases h
              exact .cons first (ih others)

theorem exists_ok_of_mapM_eq_ok {items : List α} {values : List β}
    (h : items.mapM f = .ok values) : ∀ item ∈ items, ∃ value, f item = .ok value := by
  have pairs := forall₂_of_mapM_eq_ok f h
  clear h
  induction pairs with
  | nil => exact List.forall_mem_nil _
  | cons first _ ih => exact List.forall_mem_cons.mpr ⟨⟨_, first⟩, ih⟩

theorem exists_item_of_mapM_eq_ok {items : List α} {values : List β}
    (h : items.mapM f = .ok values) : ∀ value ∈ values, ∃ item ∈ items, f item = .ok value := by
  have pairs := forall₂_of_mapM_eq_ok f h
  clear h
  induction pairs with
  | nil => exact List.forall_mem_nil _
  | @cons item value _ _ first _ ih =>
      refine List.forall_mem_cons.mpr ⟨⟨item, List.mem_cons_self, first⟩, ?_⟩
      intro other listed
      rcases ih other listed with ⟨given, member, read⟩
      exact ⟨given, List.mem_cons_of_mem item member, read⟩

end Reading

end SourceReport
