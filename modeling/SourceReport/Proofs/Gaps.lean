/-!
# Gaps in a snippet

A snippet is drawn from an ascending list of line indices. An index that alone is missing between
two others is filled in, and what stands for a longer gap depends on the two indices around it.
-/

namespace SourceReport
namespace Snippet

/-!
# Filling gaps
-/

/-- Adds every index that alone is missing between two neighbours. -/
def fillGaps : List Nat → List Nat
  | [] => []
  | [i] => [i]
  | i :: j :: rest =>
      if j = i + 2 then i :: (i + 1) :: fillGaps (j :: rest) else i :: fillGaps (j :: rest)

theorem fillGaps_cons (i : Nat) (rest : List Nat) : ∃ tail, fillGaps (i :: rest) = i :: tail := by
  cases rest with
  | nil => exact ⟨[], rfl⟩
  | cons j rest =>
      rw [fillGaps]
      split
      · exact ⟨_, rfl⟩
      · exact ⟨_, rfl⟩

theorem mem_fillGaps_cons {a b i : Nat} {rest : List Nat} :
    i ∈ fillGaps (a :: b :: rest) ↔
      i = a ∨ (b = a + 2 ∧ i = a + 1) ∨ i ∈ fillGaps (b :: rest) := by
  rw [fillGaps]
  split
  · rename_i double
    rw [List.mem_cons, List.mem_cons, and_iff_right double]
  · rename_i apart
    rw [List.mem_cons]
    constructor
    · rintro (this | later)
      · exact Or.inl this
      · exact Or.inr (Or.inr later)
    · rintro (this | ⟨double, _⟩ | later)
      · exact Or.inl this
      · exact absurd double apart
      · exact Or.inr later

/-- The index is listed, or it alone is missing between two that are. -/
def IsFilled (list : List Nat) (i : Nat) : Prop :=
  i ∈ list ∨ ∃ j ∈ list, i = j + 1 ∧ j + 2 ∈ list

theorem isFilled_cons {a b i : Nat} {rest : List Nat}
    (sorted : (a :: b :: rest).Pairwise (· < ·)) :
    IsFilled (a :: b :: rest) i ↔
      i = a ∨ (b = a + 2 ∧ i = a + 1) ∨ IsFilled (b :: rest) i := by
  rcases List.pairwise_cons.mp sorted with ⟨below, others⟩
  rcases List.pairwise_cons.mp others with ⟨beyond, _⟩
  have next := below b List.mem_cons_self
  constructor
  · rintro (listed | ⟨j, member, this, double⟩)
    · rcases List.mem_cons.mp listed with first | later
      · exact Or.inl first
      · exact Or.inr (Or.inr (Or.inl later))
    · rcases List.mem_cons.mp member with first | later
      · rw [first] at this double
        rcases List.mem_cons.mp double with same | double
        · omega
        · rcases List.mem_cons.mp double with same | above
          · exact Or.inr (Or.inl ⟨same.symm, this⟩)
          · -- `b` lies between `a` and `a + 2`, so it is the index itself.
            have order := beyond _ above
            have between : i = b := by omega
            rw [between]
            exact Or.inr (Or.inr (Or.inl List.mem_cons_self))
      · have order := below j later
        rcases List.mem_cons.mp double with same | double
        · omega
        · exact Or.inr (Or.inr (Or.inr ⟨j, later, this, double⟩))
  · rintro (first | ⟨double, this⟩ | listed | ⟨j, later, this, double⟩)
    · rw [first]
      exact Or.inl List.mem_cons_self
    · refine Or.inr ⟨a, List.mem_cons_self, this, ?_⟩
      rw [← double]
      exact List.mem_cons_of_mem a List.mem_cons_self
    · exact Or.inl (List.mem_cons_of_mem a listed)
    · exact Or.inr ⟨j, List.mem_cons_of_mem a later, this, List.mem_cons_of_mem a double⟩

theorem mem_fillGaps {list : List Nat} (sorted : list.Pairwise (· < ·)) (i : Nat) :
    i ∈ fillGaps list ↔ IsFilled list i := by
  induction list with
  | nil => simp [fillGaps, IsFilled]
  | cons a rest ih =>
      cases rest with
      | nil => simp [fillGaps, IsFilled]
      | cons b rest =>
          rw [mem_fillGaps_cons, isFilled_cons sorted, ih (List.pairwise_cons.mp sorted).2]

example : fillGaps [0, 1, 3, 6, 8] = [0, 1, 2, 3, 6, 7, 8] := by
  decide

theorem le_of_mem_fillGaps {a i : Nat} {rest : List Nat}
    (sorted : (a :: rest).Pairwise (· < ·)) (h : i ∈ fillGaps (a :: rest)) : a ≤ i := by
  have least : ∀ j ∈ a :: rest, a ≤ j := by
    intro j listed
    rcases List.mem_cons.mp listed with this | later
    · exact Nat.le_of_eq this.symm
    · exact Nat.le_of_lt ((List.pairwise_cons.mp sorted).1 j later)
  rcases (mem_fillGaps sorted i).mp h with listed | ⟨j, listed, this, _⟩
  · exact least i listed
  · have bound := least j listed
    omega

theorem pairwise_fillGaps {list : List Nat} (sorted : list.Pairwise (· < ·)) :
    (fillGaps list).Pairwise (· < ·) := by
  induction list with
  | nil => exact List.Pairwise.nil
  | cons a rest ih =>
      cases rest with
      | nil => exact List.pairwise_singleton _ _
      | cons b rest =>
          rcases List.pairwise_cons.mp sorted with ⟨below, others⟩
          have next := below b List.mem_cons_self
          have beyond : ∀ i ∈ fillGaps (b :: rest), b ≤ i := by
            intro i member
            exact le_of_mem_fillGaps others member
          rw [fillGaps]
          split
          · rename_i double
            rw [List.pairwise_cons, List.pairwise_cons]
            refine ⟨?_, ?_, ih others⟩
            · intro i member
              rcases List.mem_cons.mp member with this | later
              · omega
              · exact Nat.lt_of_lt_of_le next (beyond i later)
            · intro i later
              have bound := beyond i later
              omega
          · rw [List.pairwise_cons]
            refine ⟨?_, ih others⟩
            intro i later
            exact Nat.lt_of_lt_of_le next (beyond i later)

/-!
# Neighbours
-/

/-- Nothing of an ascending list lies between two neighbours. -/
theorem le_or_le_of_mem {list : List Nat} (sorted : list.Pairwise (· < ·)) {i j : Nat}
    (h : [i, j] <:+: list) {k : Nat} (member : k ∈ list) : k ≤ i ∨ j ≤ k := by
  rcases h with ⟨front, back, rfl⟩
  rw [List.append_assoc] at sorted member
  rcases List.pairwise_append.mp sorted with ⟨_, tail, across⟩
  rcases List.pairwise_cons.mp tail with ⟨_, others⟩
  rcases List.pairwise_cons.mp others with ⟨beyond, _⟩
  rcases List.mem_append.mp member with before | after
  · have order := across k before i List.mem_cons_self
    exact Or.inl (Nat.le_of_lt order)
  · rcases List.mem_cons.mp after with this | after
    · exact Or.inl (Nat.le_of_eq this)
    · rcases List.mem_cons.mp after with this | later
      · exact Or.inr (Nat.le_of_eq this.symm)
      · exact Or.inr (Nat.le_of_lt (beyond k later))

/-!
# Weaving
-/

/-- What belongs to each index, and between two that are more than two apart what belongs to the
gap. -/
def weave {α : Type} (line : Nat → List α) (gap : Nat → Nat → List α) : List Nat → List α
  | [] => []
  | [i] => line i
  | i :: j :: rest =>
      line i ++ (if i + 2 < j then gap i j else []) ++ weave line gap (j :: rest)

variable {α β : Type} {line : Nat → List α} {gap other : Nat → Nat → List α}

theorem filterMap_weave (f : α → Option β) (list : List Nat) :
    (weave line gap list).filterMap f =
      weave (fun i => (line i).filterMap f) (fun i j => (gap i j).filterMap f) list := by
  induction list with
  | nil => rfl
  | cons i rest ih =>
      cases rest with
      | nil => rfl
      | cons j rest =>
          rw [weave, weave, List.filterMap_append, List.filterMap_append, ih]
          split
          · rfl
          · rfl

theorem weave_eq_flatMap (none : ∀ i j, gap i j = []) (list : List Nat) :
    weave line gap list = list.flatMap line := by
  induction list with
  | nil => rfl
  | cons i rest ih =>
      cases rest with
      | nil => exact (List.append_nil _).symm
      | cons j rest => rw [weave, ih, none, ite_self, List.append_nil, List.flatMap_cons (x := i)]

/-- A weave depends only on the gaps between neighbours. -/
theorem weave_congr {list : List Nat} (h : ∀ i j, [i, j] <:+: list → gap i j = other i j) :
    weave line gap list = weave line other list := by
  induction list with
  | nil => rfl
  | cons i rest ih =>
      cases rest with
      | nil => rfl
      | cons j rest =>
          have neighbours : [i, j] <:+: i :: j :: rest := ⟨[], rest, rfl⟩
          have later : ∀ a b, [a, b] <:+: j :: rest → gap a b = other a b := by
            intro a b inside
            exact h a b (List.infix_cons inside)
          rw [weave, weave, h i j neighbours, ih later]

/-!
# Two lines of a weave

An ascending weave is what belongs to two of its indices, and what stands above, between and below
them.
-/

/-- A weave that goes on after an index. -/
def weaveAfter {α : Type} (line : Nat → List α) (gap : Nat → Nat → List α) :
    Nat → List Nat → List α
  | _, [] => []
  | i, j :: rest => (if i + 2 < j then gap i j else []) ++ line j ++ weaveAfter line gap j rest

theorem weave_cons (i : Nat) (rest : List Nat) :
    weave line gap (i :: rest) = line i ++ weaveAfter line gap i rest := by
  induction rest generalizing i with
  | nil => exact (List.append_nil _).symm
  | cons j rest ih => rw [weave, weaveAfter, ih, List.append_assoc, List.append_assoc]

theorem mem_weaveAfter {i : Nat} {rest : List Nat} {x : α} (h : x ∈ weaveAfter line gap i rest) :
    ∃ k ∈ rest, x ∈ line k ∨ ∃ j, x ∈ gap j k := by
  induction rest generalizing i with
  | nil => cases h
  | cons j rest ih =>
      rw [weaveAfter, List.append_assoc] at h
      rcases List.mem_append.mp h with between | later
      · split at between
        · exact ⟨j, List.mem_cons_self, Or.inr ⟨i, between⟩⟩
        · cases between
      · rcases List.mem_append.mp later with this | later
        · exact ⟨j, List.mem_cons_self, Or.inl this⟩
        · rcases ih later with ⟨k, member, found⟩
          exact ⟨k, List.mem_cons_of_mem j member, found⟩

theorem mem_weave {list : List Nat} {x : α} (h : x ∈ weave line gap list) :
    ∃ k ∈ list, x ∈ line k ∨ ∃ j, x ∈ gap j k := by
  cases list with
  | nil => cases h
  | cons i rest =>
      rw [weave_cons] at h
      rcases List.mem_append.mp h with this | later
      · exact ⟨i, List.mem_cons_self, Or.inl this⟩
      · rcases mem_weaveAfter later with ⟨k, member, found⟩
        exact ⟨k, List.mem_cons_of_mem i member, found⟩

/-- What stands in a weave above an index: the lines before it, and gaps down to it. -/
theorem weaveAfter_append_cons (i : Nat) (front : List Nat) (j : Nat) (rest : List Nat) :
    ∃ above, weaveAfter line gap i (front ++ j :: rest) =
        above ++ line j ++ weaveAfter line gap j rest ∧
      ∀ x ∈ above, (∃ k ∈ front, x ∈ line k) ∨ ∃ k, (k = j ∨ k ∈ front) ∧ ∃ g, x ∈ gap g k := by
  induction front generalizing i with
  | nil =>
      refine ⟨if i + 2 < j then gap i j else [], rfl, ?_⟩
      intro x member
      split at member
      · exact Or.inr ⟨j, Or.inl rfl, i, member⟩
      · cases member
  | cons f front ih =>
      rcases ih f with ⟨above, split_eq, listed⟩
      refine ⟨(if i + 2 < f then gap i f else []) ++ line f ++ above, ?_, ?_⟩
      · rw [List.cons_append, weaveAfter, split_eq, List.append_assoc, List.append_assoc,
          List.append_assoc, List.append_assoc, List.append_assoc]
      · intro x member
        rcases List.mem_append.mp member with member | later
        · rcases List.mem_append.mp member with between | this
          · split at between
            · exact Or.inr ⟨f, Or.inr List.mem_cons_self, i, between⟩
            · cases between
          · exact Or.inl ⟨f, List.mem_cons_self, this⟩
        · rcases listed x later with ⟨k, inside, found⟩ | ⟨k, inside, found⟩
          · exact Or.inl ⟨k, List.mem_cons_of_mem f inside, found⟩
          · exact Or.inr ⟨k, inside.imp id (List.mem_cons_of_mem f), found⟩

theorem weave_append_cons (front : List Nat) (j : Nat) (rest : List Nat) :
    ∃ above, weave line gap (front ++ j :: rest) =
        above ++ line j ++ weaveAfter line gap j rest ∧
      ∀ x ∈ above, (∃ k ∈ front, x ∈ line k) ∨ ∃ k, (k = j ∨ k ∈ front) ∧ ∃ g, x ∈ gap g k := by
  cases front with
  | nil => exact ⟨[], weave_cons j rest, List.forall_mem_nil _⟩
  | cons f front =>
      rcases weaveAfter_append_cons f front j rest with ⟨above, split_eq, listed⟩
      refine ⟨line f ++ above, ?_, ?_⟩
      · rw [List.cons_append, weave_cons, split_eq, List.append_assoc, List.append_assoc,
          List.append_assoc]
      · intro x member
        rcases List.mem_append.mp member with this | later
        · exact Or.inl ⟨f, List.mem_cons_self, this⟩
        · rcases listed x later with ⟨k, inside, found⟩ | ⟨k, inside, found⟩
          · exact Or.inl ⟨k, List.mem_cons_of_mem f inside, found⟩
          · exact Or.inr ⟨k, inside.imp id (List.mem_cons_of_mem f), found⟩

variable (line gap) in
theorem exists_weave_eq {list : List Nat} (sorted : list.Pairwise (· < ·)) {a b : Nat}
    (first : a ∈ list) (last : b ∈ list) (order : a < b) :
    ∃ above between below,
      weave line gap list = above ++ line a ++ between ++ line b ++ below ∧
      (∀ x ∈ above, (∃ k, k < a ∧ x ∈ line k) ∨ ∃ j k, k ≤ a ∧ x ∈ gap j k) ∧
      (∀ x ∈ between, (∃ k, a < k ∧ k < b ∧ x ∈ line k) ∨
        ∃ j k, a < k ∧ k ≤ b ∧ x ∈ gap j k) ∧
      ∀ x ∈ below, (∃ k, b < k ∧ x ∈ line k) ∨ ∃ j k, b < k ∧ x ∈ gap j k := by
  rcases List.append_of_mem first with ⟨front, rest, rfl⟩
  rcases List.pairwise_append.mp sorted with ⟨_, tail, across⟩
  rcases List.pairwise_cons.mp tail with ⟨beyond, others⟩
  have later : b ∈ rest := by
    rcases List.mem_append.mp last with before | after
    · have reversed := across b before a List.mem_cons_self
      omega
    · rcases List.mem_cons.mp after with same | later
      · omega
      · exact later
  rcases List.append_of_mem later with ⟨middle, back, rfl⟩
  rcases List.pairwise_append.mp others with ⟨_, ending, inside⟩
  have past := (List.pairwise_cons.mp ending).1
  rcases weave_append_cons front a (middle ++ b :: back) with ⟨above, weave_eq, listed⟩
  rcases weaveAfter_append_cons a middle b back with ⟨between, after_eq, listed'⟩
  refine ⟨above, between, weaveAfter line gap b back, ?_, ?_, ?_, ?_⟩
  · rw [weave_eq, after_eq, ← List.append_assoc, ← List.append_assoc]
  · intro x member
    rcases listed x member with ⟨k, known, found⟩ | ⟨k, known, g, found⟩
    · exact Or.inl ⟨k, across k known a List.mem_cons_self, found⟩
    · refine Or.inr ⟨g, k, ?_, found⟩
      rcases known with same | known
      · exact Nat.le_of_eq same
      · exact Nat.le_of_lt (across k known a List.mem_cons_self)
  · intro x member
    rcases listed' x member with ⟨k, known, found⟩ | ⟨k, known, g, found⟩
    · exact Or.inl ⟨k, beyond k (List.mem_append_left _ known),
        inside k known b List.mem_cons_self, found⟩
    · refine Or.inr ⟨g, k, ?_, ?_, found⟩
      · rcases known with same | known
        · rw [same]
          exact order
        · exact beyond k (List.mem_append_left _ known)
      · rcases known with same | known
        · exact Nat.le_of_eq same
        · exact Nat.le_of_lt (inside k known b List.mem_cons_self)
  · intro x member
    rcases mem_weaveAfter member with ⟨k, known, this | ⟨g, found⟩⟩
    · exact Or.inl ⟨k, past k known, this⟩
    · exact Or.inr ⟨g, k, past k known, found⟩

end Snippet

end SourceReport
