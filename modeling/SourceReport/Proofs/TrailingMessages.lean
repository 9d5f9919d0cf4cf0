import SourceReport.Proofs.CaretRows
import SourceReport.Proofs.Highlights
import SourceReport.Proofs.MarkOrder
import SourceReport.Proofs.OwnLines

/-!
# The message after the carets

One message of a line may follow the carets: that of the mark that ends last, if no other mark ends
there or overlaps it. All other messages hang below, one row each.
-/

namespace SourceReport
namespace Line

/-- What holds of the marks that are planned for a line. -/
structure IsPlanned (marks : List SingleMark) : Prop where
  nonneg : ∀ mark ∈ marks, 0 ≤ mark.start
  nonempty : ∀ mark ∈ marks, mark.start < mark.stop
  sorted : SingleMark.IsSorted marks

/-- The mark ends after all others and overlaps none, and it has a message. -/
structure Trails (marks front : List SingleMark) (mark : SingleMark) (back : List SingleMark) :
    Prop where
  listed : marks = front ++ mark :: back
  shown : mark.message.isEmpty = false
  last : ∀ other ∈ front ++ back, other.stop < mark.stop
  apart : ∀ other ∈ front ++ back, overlaps mark.range other.range = false

/-!
# The mark that ends last

Of several marks that end last, the search finds the last one.
-/

/-- The mark is the last one of those with the greatest end. -/
structure EndsLast (front : List SingleMark) (mark : SingleMark) (back : List SingleMark) :
    Prop where
  before : ∀ other ∈ front, other.stop ≤ mark.stop
  after : ∀ other ∈ back, other.stop < mark.stop

theorem Trails.endsLast {marks front back : List SingleMark} {mark : SingleMark}
    (h : Trails marks front mark back) : EndsLast front mark back where
  before other listed := Int.le_of_lt (h.last other (List.mem_append_left back listed))
  after other listed := h.last other (List.mem_append_right front listed)

theorem exists_endsLast {marks : List SingleMark} (marked : marks ≠ []) :
    ∃ front mark back, marks = front ++ mark :: back ∧ EndsLast front mark back := by
  induction marks with
  | nil => exact absurd rfl marked
  | cons head rest ih =>
      by_cases alone : rest = []
      · rw [alone]
        exact ⟨[], head, [], rfl, List.forall_mem_nil _, List.forall_mem_nil _⟩
      · rcases ih alone with ⟨front, mark, back, rfl, before, after⟩
        by_cases order : head.stop ≤ mark.stop
        · exact ⟨head :: front, mark, back, rfl, List.forall_mem_cons.mpr ⟨order, before⟩, after⟩
        · refine ⟨[], head, front ++ mark :: back, rfl, List.forall_mem_nil _, ?_⟩
          rw [List.forall_mem_append, List.forall_mem_cons]
          have beyond := Int.lt_of_not_ge order
          exact ⟨fun other listed => Int.lt_of_le_of_lt (before other listed) beyond, beyond,
            fun other listed => Int.lt_trans (after other listed) beyond⟩

/-- Marks that end before the greatest end so far change nothing. -/
theorem lastToStop_of_lt {reach : Int} {marks : List SingleMark}
    (short : ∀ mark ∈ marks, mark.stop < reach) (found : Option Nat) (start : Nat) :
    lastToStop reach found start marks = found := by
  induction marks generalizing start with
  | nil => rfl
  | cons mark rest ih =>
      rw [List.forall_mem_cons] at short
      have kept : max reach mark.stop = reach := Int.max_eq_left (Int.le_of_lt short.1)
      rw [lastToStop, kept, if_neg (Int.ne_of_lt short.1)]
      exact ih short.2 (start + 1)

theorem lastToStop_eq {front back : List SingleMark} {mark : SingleMark}
    (h : EndsLast front mark back) {reach : Int} (bound : reach ≤ mark.stop) (found : Option Nat)
    (start : Nat) :
    lastToStop reach found start (front ++ mark :: back) =
      if mark.message.isEmpty then none else some (start + front.length) := by
  -- No end before the mark exceeds its own, whatever has been found up to there.
  induction front generalizing reach found start with
  | nil =>
      rw [List.nil_append, lastToStop, Int.max_eq_right bound, if_pos rfl]
      exact lastToStop_of_lt h.after _ (start + 1)
  | cons head rest ih =>
      have before := List.forall_mem_cons.mp h.before
      rw [List.cons_append, lastToStop, ih ⟨before.2, h.after⟩ (Int.max_le.mpr ⟨bound, before.1⟩),
        List.length_cons, Nat.add_assoc, Nat.add_comm 1]

theorem isCovered_eq (front : List SingleMark) (mark : SingleMark) (back : List SingleMark) :
    isCovered (front ++ mark :: back) front.length =
      (front ++ back).any fun other => overlaps mark.range other.range := by
  have place : (front ++ mark :: back)[front.length]? = some mark := by
    rw [List.getElem?_append_right (Nat.le_refl _), Nat.sub_self]
    rfl
  have others := filter_zipIdx_ne front mark back 0
  rw [Nat.zero_add] at others
  rw [isCovered, place, ← others, List.any_map, List.any_filter]
  rfl

theorem trailing?_eq {front back : List SingleMark} {mark : SingleMark}
    (h : EndsLast front mark back) (bound : 0 ≤ mark.stop) :
    trailing? (front ++ mark :: back) =
      if mark.message.isEmpty || (front ++ back).any fun other => overlaps mark.range other.range
      then none
      else some front.length := by
  rw [trailing?, lastToStop_eq h bound, Nat.zero_add, ← isCovered_eq]
  cases mark.message.isEmpty with
  | true => rfl
  | false =>
      cases covered : isCovered (front ++ mark :: back) front.length with
      | true => simp [covered]
      | false => simp [covered]

/-- Marks that end together overlap. -/
theorem overlaps_of_stop_eq {mark other : SingleMark} (nonempty : mark.start < mark.stop)
    (wide : other.start < other.stop) (same : other.stop = mark.stop) :
    overlaps mark.range other.range = true := by
  rw [overlaps, decide_eq_true_eq]
  show max mark.start other.start < min mark.stop other.stop
  rw [same, Int.min_self]
  exact Int.max_lt.mpr ⟨nonempty, same ▸ wide⟩

/-- A mark that ends last and overlaps no other mark is the only one that ends there. -/
theorem EndsLast.trails {front back : List SingleMark} {mark : SingleMark}
    (h : EndsLast front mark back) (nonempty : ∀ one ∈ front ++ mark :: back, one.start < one.stop)
    (shown : mark.message.isEmpty = false)
    (apart : ∀ other ∈ front ++ back, overlaps mark.range other.range = false) :
    Trails (front ++ mark :: back) front mark back := by
  refine ⟨rfl, shown, ?_, apart⟩
  intro other listed
  have both : other ∈ front ++ mark :: back ∧ other.stop ≤ mark.stop := by
    rcases List.mem_append.mp listed with before | after
    · exact ⟨List.mem_append_left _ before, h.before other before⟩
    · exact ⟨List.mem_append_right front (List.mem_cons_of_mem mark after),
        Int.le_of_lt (h.after other after)⟩
  rcases Int.lt_or_eq_of_le both.2 with less | same
  · exact less
  · have wide := nonempty mark (List.mem_append_right front List.mem_cons_self)
    have covered := overlaps_of_stop_eq wide (nonempty other both.1) same
    rw [apart other listed] at covered
    cases covered

theorem trailing?_eq_some_iff {marks : List SingleMark} (planned : IsPlanned marks) (place : Nat) :
    trailing? marks = some place ↔
      ∃ front mark back, Trails marks front mark back ∧ front.length = place := by
  have bound : ∀ mark ∈ marks, 0 ≤ mark.stop := fun mark listed =>
    Int.le_of_lt (Int.lt_of_le_of_lt (planned.nonneg mark listed) (planned.nonempty mark listed))
  constructor
  · intro found
    have marked : marks ≠ [] := by
      intro empty
      rw [empty] at found
      cases found
    rcases exists_endsLast marked with ⟨front, mark, back, rfl, ends⟩
    have member : mark ∈ front ++ mark :: back := List.mem_append_right front List.mem_cons_self
    rw [trailing?_eq ends (bound mark member)] at found
    split at found
    · cases found
    · rename_i chosen
      rw [Bool.or_eq_true, not_or, Bool.not_eq_true, List.any_eq_true] at chosen
      have apart : ∀ other ∈ front ++ back, overlaps mark.range other.range = false :=
        fun other listed => Bool.eq_false_iff.mpr fun overlap =>
          chosen.2 ⟨other, listed, overlap⟩
      exact ⟨front, mark, back, ends.trails planned.nonempty chosen.1 apart, Option.some.inj found⟩
  · intro trails
    rcases trails with ⟨front, mark, back, h, rfl⟩
    have member : mark ∈ marks := h.listed ▸ List.mem_append_right front List.mem_cons_self
    have uncovered : ((front ++ back).any fun other => overlaps mark.range other.range) = false :=
      List.any_eq_false.mpr fun other listed => Bool.eq_false_iff.mp (h.apart other listed)
    have ends := trailing?_eq h.endsLast (bound mark member)
    rw [← h.listed, h.shown, uncovered] at ends
    exact ends

/-!
# The messages below
-/

variable {marks : List SingleMark}

theorem trailingText_eq_some_iff (planned : IsPlanned marks) (style : LabelStyle)
    (message : String) :
    trailingText marks = some (style, message) ↔
      ∃ front mark back, Trails marks front mark back ∧ mark.style = style ∧
        mark.message = message := by
  have text : ∀ front mark back, Trails marks front mark back →
      trailingText marks = some (mark.style, mark.message) := by
    intro front mark back h
    have found := (trailing?_eq_some_iff planned front.length).mpr ⟨front, mark, back, h, rfl⟩
    have place : marks[front.length]? = some mark := by
      rw [h.listed, List.getElem?_append_right (Nat.le_refl _), Nat.sub_self]
      rfl
    rw [trailingText, found, Option.bind_some, place]
    rfl
  constructor
  · intro printed
    cases found : trailing? marks with
    | none =>
        rw [trailingText, found] at printed
        cases printed
    | some place =>
        rcases (trailing?_eq_some_iff planned place).mp found with ⟨front, mark, back, h, _⟩
        rw [text front mark back h] at printed
        cases printed
        exact ⟨front, mark, back, h, rfl, rfl⟩
  · intro trails
    rcases trails with ⟨front, mark, back, h, rfl, rfl⟩
    exact text front mark back h

theorem hangingMarks_of_trails (planned : IsPlanned marks) {front back : List SingleMark}
    {mark : SingleMark} (h : Trails marks front mark back) :
    hangingMarks marks = withMessage (front ++ back) := by
  have found := (trailing?_eq_some_iff planned front.length).mpr ⟨front, mark, back, h, rfl⟩
  have others := withMessageExcept_append_cons front mark back 0
  rw [Nat.zero_add, ← h.listed] at others
  rw [hangingMarks_eq, found, others]

theorem hangingMarks_of_not_trails (planned : IsPlanned marks)
    (h : ¬ ∃ front mark back, Trails marks front mark back) :
    hangingMarks marks = withMessage marks := by
  rw [hangingMarks_eq]
  apply withMessageExcept_of_forall_ne
  intro place _ found
  rcases (trailing?_eq_some_iff planned place).mp found.symm with ⟨front, mark, back, trails, _⟩
  exact h ⟨front, mark, back, trails⟩

/-- From the last hanging message to the first, the starts go to the left. -/
theorem pairwise_reverse_hangingMarks (planned : IsPlanned marks) :
    (hangingMarks marks).reverse.Pairwise fun a b => b.start ≤ a.start := by
  have ascending : marks.Pairwise fun a b => a.start ≤ b.start := by
    refine planned.sorted.imp ?_
    intro a b order
    rw [SingleMark.follows_iff] at order
    omega
  have sublist : (hangingMarks marks).Sublist marks := by
    have all := List.filter_sublist (p := fun mark : SingleMark × Nat =>
      !mark.1.message.isEmpty && some mark.2 ≠ trailing? marks) (l := marks.zipIdx)
    have mapped := all.map Prod.fst
    rw [List.zipIdx_map_fst] at mapped
    exact mapped
  rw [List.pairwise_reverse]
  exact ascending.sublist sublist

/-!
# The rows of a marked line
-/

/-- The rows in which messages hang: none without a message, else a row of pointers and one row for
each message, from the last mark to the first. -/
inductive HangIn (gutter : List GutterCell) : List SingleMark → List Row → Prop where
  | nothing : HangIn gutter [] []
  | below {hanging : List SingleMark} (some_message : hanging ≠ []) (pointers : List PointerCell)
      (cells : SingleMark → List PointerCell) :
      HangIn gutter hanging
        (.pointers gutter pointers ::
          hanging.reverse.map fun mark => .hanging gutter (cells mark) mark.style mark.message)

theorem hangIn_hangingRows (gutter : List GutterCell) (placed : List PlacedChar)
    (marks : List SingleMark) :
    HangIn gutter (hangingMarks marks) (hangingRows gutter placed marks) := by
  rw [hangingRows]
  split
  · rename_i none
    rw [none]
    exact HangIn.nothing
  · rename_i hangs
    exact HangIn.below hangs _ _

/-- Which messages follow the carets and which ones hang. -/
structure PlacesMessages (marks : List SingleMark) (trailing : Option (LabelStyle × String))
    (hanging : List SingleMark) : Prop where
  trailing_iff : ∀ style message, trailing = some (style, message) ↔
    ∃ front mark back, Trails marks front mark back ∧ mark.style = style ∧ mark.message = message
  beside : ∀ front mark back, Trails marks front mark back → hanging = withMessage (front ++ back)
  alone : (¬ ∃ front mark back, Trails marks front mark back) → hanging = withMessage marks
  leftward : hanging.reverse.Pairwise fun a b => b.start ≤ a.start

theorem placesMessages (planned : IsPlanned marks) :
    PlacesMessages marks (trailingText marks) (hangingMarks marks) where
  trailing_iff := trailingText_eq_some_iff planned
  beside _ _ _ trails := hangingMarks_of_trails planned trails
  alone := hangingMarks_of_not_trails planned
  leftward := pairwise_reverse_hangingMarks planned

/-- The rows of a marked line: under its source row the carets with the message that follows them,
then the messages that hang, and then other rows. -/
def DrawsMessages (number : Int) (marks : List SingleMark) (rows others : List Row) : Prop :=
  ∃ left cells gutter carets trailing hanging below,
    rows = .source number left cells :: .carets gutter carets trailing :: (below ++ others) ∧
    HangIn gutter hanging below ∧ PlacesMessages marks trailing hanging

theorem drawsMessages (tabWidth : Nat) (number : Int) (text : String) (columns : Nat)
    (entries : List BracketEntry) (marked : marks ≠ []) (planned : IsPlanned marks) :
    DrawsMessages number marks (rows tabWidth number text marks columns entries)
      (bracketRows entries columns (indent (trimTrailing text.toList))
        (place tabWidth (trimTrailing text.toList))) :=
  ⟨_, _, _, _, _, _, _, rows_eq tabWidth number text columns entries marked,
    hangIn_hangingRows _ _ marks, placesMessages planned⟩

end Line

/-!
# Planned marks
-/

namespace FileRecord

variable {record : FileRecord} {labels : List Label}

/-- The marks that are planned for a line begin on it and take at least one byte, in order. -/
theorem isPlanned_marksAt (options : Options) (first : Int) (i : Nat) :
    Line.IsPlanned (record.marksAt options first labels i) where
  nonneg mark listed := by
    rcases mem_marksAt_iff.mp listed with ⟨label, _, _, _, rfl⟩
    have start := record.startOf_lineAt_le label.start
    show 0 ≤ (label.start : Int) - record.startOf (record.lineAt label.start)
    omega
  nonempty mark listed := by
    rcases mem_marksAt_iff.mp listed with ⟨label, _, _, _, rfl⟩
    exact Int.lt_of_lt_of_le (Int.lt_add_one_of_le (Int.le_refl _)) (Int.le_max_right _ _)
  sorted := SingleMark.isSorted_insertAll _

theorem drawsMessages_lineRows (options : Options) (first : Int) (i : Nat)
    (marked : record.marksAt options first labels i ≠ []) :
    Line.DrawsMessages (first + i) (record.marksAt options first labels i)
      (record.lineRows options first labels i)
      (Line.bracketRows (record.entriesAt options first labels i)
        (record.columns options first labels) (Line.indent (Line.trimTrailing (record.lineText i)))
        (Line.place options.tabWidth (Line.trimTrailing (record.lineText i)))) := by
  have drawn := Line.drawsMessages options.tabWidth (first + i)
    (String.ofList (record.lineText i)) (record.columns options first labels)
    (record.entriesAt options first labels i) marked (isPlanned_marksAt options first i)
  rw [String.toList_ofList] at drawn
  exact drawn

end FileRecord

/-!
# The rows of messages in a report
-/

namespace Line

/-- The message that follows the carets is the right one, and all others hang. The lines of a snippet
are drawn like that for any labels. -/
theorem message_rows_exact (tabWidth : Nat) (number : Int) (text : String)
    (marks : List SingleMark) (columns : Nat) (entries : List BracketEntry) (marked : marks ≠ [])
    (planned : IsPlanned marks) :
    DrawsMessages number marks (rows tabWidth number text marks columns entries)
        (bracketRows entries columns (indent (trimTrailing text.toList))
          (place tabWidth (trimTrailing text.toList))) ∧
      ∀ (record : FileRecord) (options : Options) (first : Int) (labels : List Label) (i : Nat),
        record.marksAt options first labels i ≠ [] →
          DrawsMessages (first + i) (record.marksAt options first labels i)
            (record.lineRows options first labels i)
            (bracketRows (record.entriesAt options first labels i)
              (record.columns options first labels) (indent (trimTrailing (record.lineText i)))
              (place options.tabWidth (trimTrailing (record.lineText i)))) :=
  ⟨drawsMessages tabWidth number text columns entries marked planned,
    fun _ options first _ i marked => FileRecord.drawsMessages_lineRows options first i marked⟩

theorem message_rows_exact_wide :
    Wide.marks ≠ [] ∧ IsPlanned Wide.marks ∧
      DrawsMessages 1 Wide.marks (rows 4 1 Wide.text Wide.marks 0 [])
        (bracketRows [] 0 (indent (trimTrailing Wide.text.toList))
          (place 4 (trimTrailing Wide.text.toList))) := by
  have sorted : SingleMark.IsSorted Wide.marks := by
    unfold SingleMark.IsSorted
    decide
  have planned : IsPlanned Wide.marks := ⟨by decide, by decide, sorted⟩
  exact ⟨by decide, planned,
    (message_rows_exact 4 1 Wide.text Wide.marks 0 [] (by decide) planned).1⟩

end Line
end SourceReport
