/-!
# Splitting text

A text falls into the pieces between its marks: one more than it has marks.
-/

namespace SourceReport

section Pieces

variable {α : Type} [DecidableEq α]

def pieces (mark : α) : List α → List (List α)
  | [] => [[]]
  | c :: rest =>
      if c = mark then [] :: pieces mark rest
      else
        match pieces mark rest with
        | [] => [[c]]
        | piece :: more => (c :: piece) :: more

theorem pieces_ne_nil (mark : α) (text : List α) : pieces mark text ≠ [] := by
  cases text with
  | nil => simp [pieces]
  | cons c rest =>
      simp only [pieces]
      split
      · simp
      · split <;> simp

theorem length_pieces (mark : α) (text : List α) :
    (pieces mark text).length = text.count mark + 1 := by
  induction text with
  | nil => simp [pieces]
  | cons c rest ih =>
      by_cases h : c = mark
      · simp [pieces, h, ih]
      · have hne := pieces_ne_nil mark rest
        cases hrest : pieces mark rest with
        | nil => exact absurd hrest hne
        | cons piece more =>
            rw [hrest] at ih
            simp [pieces, h, hrest] at ih ⊢
            exact ih

theorem pieces_of_not_mem {mark : α} {text : List α} (h : mark ∉ text) :
    pieces mark text = [text] := by
  induction text with
  | nil => rfl
  | cons c rest ih =>
      rw [List.mem_cons, not_or] at h
      simp only [pieces, if_neg (Ne.symm h.1), ih h.2]

theorem pieces_append (mark : α) (front back : List α) :
    pieces mark (front ++ mark :: back) = pieces mark front ++ pieces mark back := by
  induction front with
  | nil => simp [pieces]
  | cons c front ih =>
      by_cases h : c = mark
      · simp only [List.cons_append, pieces, if_pos h, ih]
      · simp only [List.cons_append, pieces, if_neg h, ih]
        cases found : pieces mark front with
        | nil => exact absurd found (pieces_ne_nil mark front)
        | cons piece more => rfl

end Pieces

theorem not_mem_intercalate {c : Char} {between : String} {texts : List String}
    (apart : c ∉ between.toList) (h : ∀ text ∈ texts, c ∉ text.toList) :
    c ∉ (between.intercalate texts).toList := by
  induction texts with
  | nil => exact List.not_mem_nil
  | cons first rest ih =>
      rw [List.forall_mem_cons] at h
      cases rest with
      | nil =>
          rw [String.intercalate_singleton]
          exact h.1
      | cons second others =>
          simp only [String.intercalate_cons_cons, String.toList_append, List.mem_append, not_or]
          exact ⟨⟨h.1, apart⟩, ih h.2⟩

def splitLines (text : List Char) : List (List Char) :=
  pieces '\n' text

/-- Whether a text occurs within another. -/
def occursIn (part : List Char) : List Char → Bool
  | [] => part.isEmpty
  | c :: rest => part.isPrefixOf (c :: rest) || occursIn part rest

/-- Writes every line end, a carriage return alone or before a newline too, as a newline. -/
def unifyLineEnds : List Char → List Char
  | [] => []
  | '\r' :: '\n' :: rest => '\n' :: unifyLineEnds rest
  | '\r' :: rest => '\n' :: unifyLineEnds rest
  | c :: rest => c :: unifyLineEnds rest

end SourceReport
