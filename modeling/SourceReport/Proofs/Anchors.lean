import SourceReport.Proofs.Placing

/-!
# Anchors

A snippet is anchored at the best of its labels: a primary label is better than a secondary one, and
of two labels in the same style the one that starts first is better. No order of the labels changes
the style or the place of the best one.
-/

namespace SourceReport
namespace Label

/-- The label is at least as good an anchor as another one. -/
def Leads (label other : Label) : Prop :=
  (label.style = .primary ∧ other.style = .secondary) ∨
    (label.style = other.style ∧ label.start ≤ other.start)

theorem Leads.refl (label : Label) : label.Leads label :=
  Or.inr ⟨rfl, Nat.le_refl _⟩

theorem Leads.trans {label next last : Label} (h : label.Leads next) (after : next.Leads last) :
    label.Leads last := by
  rcases h with ⟨primary, secondary⟩ | ⟨style, order⟩
  · rcases after with ⟨other, _⟩ | ⟨other, _⟩
    · rw [secondary] at other
      cases other
    · exact Or.inl ⟨primary, other.symm.trans secondary⟩
  · rcases after with ⟨primary, secondary⟩ | ⟨other, later⟩
    · exact Or.inl ⟨style.trans primary, secondary⟩
    · exact Or.inr ⟨style.trans other, Nat.le_trans order later⟩

/-- Of two labels that lead each other neither has another style or place. -/
theorem Leads.antisymm {label other : Label} (h : label.Leads other) (back : other.Leads label) :
    label.style = other.style ∧ label.start = other.start := by
  rcases h with ⟨primary, secondary⟩ | ⟨style, order⟩
  · rcases back with ⟨contrary, _⟩ | ⟨style, _⟩
    · rw [secondary] at contrary
      cases contrary
    · rw [primary, secondary] at style
      cases style
  · rcases back with ⟨primary, secondary⟩ | ⟨_, back⟩
    · rw [primary, secondary] at style
      cases style
    · exact ⟨style, Nat.le_antisymm order back⟩

end Label

namespace Placement

/-!
# The better of two placements
-/

theorem better_eq_or (held next : Placement) :
    better held next = held ∨ better held next = next := by
  rw [better]
  split
  · exact Or.inr rfl
  · exact Or.inl rfl

theorem better_leads (held next : Placement) :
    (better held next).label.Leads held.label ∧ (better held next).label.Leads next.label := by
  rw [better]
  split
  · rename_i improves
    refine ⟨?_, Label.Leads.refl _⟩
    rcases improves with ⟨secondary, primary⟩ | ⟨style, earlier⟩
    · exact Or.inl ⟨primary, secondary⟩
    · exact Or.inr ⟨style.symm, Nat.le_of_lt earlier⟩
  · rename_i kept
    refine ⟨Label.Leads.refl _, ?_⟩
    rw [not_or] at kept
    by_cases style : held.label.style = next.label.style
    · have order := fun earlier => kept.2 ⟨style, earlier⟩
      exact Or.inr ⟨style, Nat.le_of_not_lt order⟩
    · cases first : held.label.style with
      | primary =>
          cases second : next.label.style with
          | primary => exact absurd (first.trans second.symm) style
          | secondary => exact Or.inl ⟨first, second⟩
      | secondary =>
          cases second : next.label.style with
          | primary => exact absurd ⟨first, second⟩ kept.1
          | secondary => exact absurd (first.trans second.symm) style

/-!
# The best of all placements
-/

/-- The placement that a file is anchored at. -/
def best (head : Placement) (placements : List Placement) : Placement :=
  placements.foldl better head

theorem best_mem (head : Placement) (placements : List Placement) :
    best head placements ∈ head :: placements := by
  induction placements generalizing head with
  | nil => exact List.mem_cons_self
  | cons next rest ih =>
      rcases List.mem_cons.mp (ih (better head next)) with this | later
      · rcases better_eq_or head next with held | taken
        · rw [best, List.foldl_cons, ← best, this, held]
          exact List.mem_cons_self
        · rw [best, List.foldl_cons, ← best, this, taken]
          exact List.mem_cons_of_mem head List.mem_cons_self
      · exact List.mem_cons_of_mem head (List.mem_cons_of_mem next later)

theorem best_mem_of_mem {head : Placement} {placements : List Placement}
    (h : head ∈ placements) : best head placements ∈ placements := by
  rcases List.mem_cons.mp (best_mem head placements) with this | listed
  · rw [this]
    exact h
  · exact listed

theorem best_leads (head : Placement) (placements : List Placement) :
    ∀ placement ∈ head :: placements, (best head placements).label.Leads placement.label := by
  induction placements generalizing head with
  | nil =>
      rw [List.forall_mem_singleton]
      exact Label.Leads.refl _
  | cons next rest ih =>
      have later := ih (better head next)
      rw [List.forall_mem_cons] at later
      have better := better_leads head next
      rw [List.forall_mem_cons, List.forall_mem_cons]
      exact ⟨later.1.trans better.1, later.1.trans better.2, later.2⟩

/-- The best of the same placements has the same style and place, whichever came first. -/
theorem best_unique {head other : Placement} {placements others : List Placement}
    (member : head ∈ placements) (known : other ∈ others)
    (same : ∀ placement, placement ∈ placements ↔ placement ∈ others) :
    (best head placements).label.style = (best other others).label.style ∧
      (best head placements).label.start = (best other others).label.start := by
  have left := (same _).mp (best_mem_of_mem member)
  have right := (same _).mpr (best_mem_of_mem known)
  have forth := best_leads head placements _ (List.mem_cons_of_mem head right)
  have back := best_leads other others _ (List.mem_cons_of_mem other left)
  exact forth.antisymm back

end Placement
end SourceReport
