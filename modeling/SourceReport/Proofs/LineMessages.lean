import Mathlib.Data.List.Perm.Basic
import SourceReport.Proofs.Snippets

/-!
# Messages of a line

The rows of a line print the message of every label that ends on the line, and no other message. A
label on one line has its message after the carets or below them, and a label over several lines has
it after the bracket of its last line.
-/

namespace SourceReport

/-- The messages that are not empty, in order. -/
def nonempty (messages : List String) : List String :=
  messages.filter fun message => !message.isEmpty

/-!
# The order of the marks
-/

namespace SingleMark

theorem perm_insert (marks : List SingleMark) (mark : SingleMark) :
    (insert marks mark).Perm (mark :: marks) := by
  apply List.perm_insertIdx
  exact List.findIdx_le_length

theorem perm_insertMany (inserted marks : List SingleMark) :
    (marks.foldl insert inserted).Perm (inserted ++ marks) := by
  induction marks generalizing inserted with
  | nil => rw [List.append_nil, List.foldl_nil]
  | cons mark rest ih =>
      have moved : (mark :: inserted ++ rest).Perm (inserted ++ mark :: rest) :=
        List.perm_middle.symm
      exact (ih (insert inserted mark)).trans
        (((perm_insert inserted mark).append_right rest).trans moved)

theorem perm_insertAll (marks : List SingleMark) : (insertAll marks).Perm marks :=
  perm_insertMany [] marks

end SingleMark

namespace Line

/-!
# The mark whose message follows the carets
-/

/-- A mark found is a mark with a message. -/
theorem lastToStop_eq_some {reach : Int} {found : Option Nat} {start place : Nat}
    {marks : List SingleMark} (h : lastToStop reach found start marks = some place) :
    found = some place ∨
      ∃ i mark, marks[i]? = some mark ∧ place = start + i ∧ mark.message.isEmpty = false := by
  induction marks generalizing reach found start with
  | nil => exact Or.inl h
  | cons mark rest ih =>
      rw [lastToStop] at h
      rcases ih h with earlier | ⟨i, next, listed, this, shown⟩
      · split at earlier
        · split at earlier
          · cases earlier
          · rename_i shown
            cases earlier
            exact Or.inr ⟨0, mark, rfl, rfl, Bool.eq_false_iff.mpr shown⟩
        · exact Or.inl earlier
      · exact Or.inr ⟨i + 1, next, listed, by omega, shown⟩

theorem trailing?_eq_some {marks : List SingleMark} {place : Nat}
    (h : trailing? marks = some place) :
    ∃ mark, marks[place]? = some mark ∧ mark.message.isEmpty = false := by
  have found := (Option.filter_eq_some_iff.mp h).1
  rcases lastToStop_eq_some found with earlier | ⟨i, mark, listed, this, shown⟩
  · cases earlier
  · rw [Nat.zero_add] at this
    rw [this]
    exact ⟨mark, listed, shown⟩

/-!
# The messages of marks
-/

def withMessage (marks : List SingleMark) : List SingleMark :=
  marks.filter fun mark => !mark.message.isEmpty

theorem nonempty_messages (marks : List SingleMark) :
    nonempty (marks.map (·.message)) = (withMessage marks).map (·.message) :=
  List.filter_map

/-- The marks with a message that do not stand at a place, if places count from `start` on. -/
def withMessageExcept (place : Option Nat) (marks : List SingleMark) (start : Nat) :
    List SingleMark :=
  ((marks.zipIdx start).filter fun mark => !mark.1.message.isEmpty && some mark.2 ≠ place).map (·.1)

/-- Leaving out one place of a list leaves out what stands there. -/
theorem filter_zipIdx_ne (front : List SingleMark) (mark : SingleMark) (back : List SingleMark)
    (start : Nat) :
    (((front ++ mark :: back).zipIdx start).filter fun other =>
      other.2 ≠ start + front.length).map (·.1) = front ++ back := by
  have before : ∀ other ∈ front.zipIdx start, decide (other.2 ≠ start + front.length) = true := by
    intro other listed
    have place := List.mem_zipIdx listed
    rw [decide_eq_true_eq]
    omega
  have after : ∀ other ∈ back.zipIdx (start + front.length + 1),
      decide (other.2 ≠ start + front.length) = true := by
    intro other listed
    have place := List.mem_zipIdx listed
    rw [decide_eq_true_eq]
    omega
  have here : ¬ decide (start + front.length ≠ start + front.length) = true := by simp
  rw [List.zipIdx_append, List.filter_append, List.zipIdx_cons, List.filter_cons, if_neg here,
    List.filter_eq_self.mpr before, List.filter_eq_self.mpr after, List.map_append,
    List.zipIdx_map_fst, List.zipIdx_map_fst]

theorem withMessageExcept_append_cons (front : List SingleMark) (mark : SingleMark)
    (back : List SingleMark) (start : Nat) :
    withMessageExcept (some (start + front.length)) (front ++ mark :: back) start =
      withMessage (front ++ back) := by
  have parts : (fun other : SingleMark × Nat =>
      !other.1.message.isEmpty && some other.2 ≠ some (start + front.length)) =
        fun other => !other.1.message.isEmpty && decide (other.2 ≠ start + front.length) := by
    funext other
    simp
  rw [withMessageExcept, parts, ← List.filter_filter, withMessage,
    ← filter_zipIdx_ne front mark back start, List.filter_map]
  rfl

/-- No mark is left out if the place lies before all of them. -/
theorem withMessageExcept_of_forall_ne {place : Option Nat} {marks : List SingleMark} {start : Nat}
    (h : ∀ i, start ≤ i → some i ≠ place) :
    withMessageExcept place marks start = withMessage marks := by
  have everywhere : ∀ other ∈ marks.zipIdx start,
      (!other.1.message.isEmpty && some other.2 ≠ place) = !other.1.message.isEmpty := by
    intro other listed
    have kept := h other.2 (List.mem_zipIdx listed).1
    rw [decide_eq_true kept, Bool.and_true]
  rw [withMessageExcept, List.filter_congr everywhere, withMessage]
  nth_rewrite 2 [← List.zipIdx_map_fst start marks]
  rw [List.filter_map]
  rfl

/-- The mark left out is the only one that is missing. -/
theorem perm_withMessageExcept {marks : List SingleMark} {start place : Nat} {mark : SingleMark}
    (listed : marks[place]? = some mark) (shown : mark.message.isEmpty = false) :
    (mark :: withMessageExcept (some (start + place)) marks start).Perm (withMessage marks) := by
  rcases List.getElem?_eq_some_iff.mp listed with ⟨inside, this⟩
  have split : marks = marks.take place ++ mark :: marks.drop (place + 1) := by
    rw [← this, ← List.drop_eq_getElem_cons inside, List.take_append_drop]
  have length : (marks.take place).length = place :=
    List.length_take_of_le (Nat.le_of_lt inside)
  have others := withMessageExcept_append_cons (marks.take place) mark (marks.drop (place + 1)) start
  rw [← split, length] at others
  have kept : withMessage (mark :: (marks.take place ++ marks.drop (place + 1))) =
      mark :: withMessage (marks.take place ++ marks.drop (place + 1)) :=
    List.filter_cons_of_pos (by rw [shown]; rfl)
  rw [others, ← kept]
  nth_rewrite 3 [split]
  exact List.perm_middle.symm.filter _

theorem hangingMarks_eq (marks : List SingleMark) :
    hangingMarks marks = withMessageExcept (trailing? marks) marks 0 := rfl

theorem filterMap_markRows (gutter : List GutterCell) (line : List Char)
    (placed : List PlacedChar) (marks : List SingleMark) :
    (markRows gutter line placed marks).filterMap Row.message? =
      ((trailingText marks).map (·.2)).toList ++ (hangingMarks marks).reverse.map (·.message) := by
  have hanging : ∀ list : List SingleMark,
      (list.map (hangingRow gutter (maxStart marks) (hangingMarks marks) placed)).filterMap
        Row.message? = list.map (·.message) := by
    intro list
    rw [List.filterMap_map, ← List.filterMap_eq_map]
    rfl
  have carets : (Row.carets gutter (caretCells line placed marks) (trailingText marks)).message? =
      (trailingText marks).map (·.2) := by
    cases trailingText marks with
    | none => rfl
    | some text => rfl
  rw [markRows]
  split
  · rename_i none
    rw [List.isEmpty_iff.mp none, List.filterMap_cons, carets]
    cases trailingText marks with
    | none => rfl
    | some text => rfl
  · rw [List.filterMap_cons, List.filterMap_cons, hanging, carets]
    cases trailingText marks with
    | none => rfl
    | some text => rfl

/-- The messages of all marks are printed, each once. -/
theorem perm_filterMap_markRows (gutter : List GutterCell) (line : List Char)
    (placed : List PlacedChar) (marks : List SingleMark) :
    ((markRows gutter line placed marks).filterMap Row.message?).Perm
      (nonempty (marks.map (·.message))) := by
  rw [filterMap_markRows, nonempty_messages]
  have below : ((hangingMarks marks).reverse.map (·.message)).Perm
      ((hangingMarks marks).map (·.message)) := (List.reverse_perm _).map _
  cases found : trailing? marks with
  | none =>
      have everywhere : ∀ i, 0 ≤ i → some i ≠ (none : Option Nat) := by
        intro i _ same
        cases same
      rw [hangingMarks_eq, found, withMessageExcept_of_forall_ne everywhere] at below ⊢
      rw [trailingText, found]
      exact below
  | some place =>
      rcases trailing?_eq_some found with ⟨mark, listed, shown⟩
      have all : (mark :: withMessageExcept (some (0 + place)) marks 0).Perm (withMessage marks) :=
        perm_withMessageExcept listed shown
      rw [Nat.zero_add] at all
      rw [hangingMarks_eq, found] at below ⊢
      rw [trailingText, found, Option.bind_some, listed]
      exact (below.cons mark.message).trans (all.map SingleMark.message)

end Line

/-!
# The messages of brackets
-/

/-- The message of a bracket that ends on the line. -/
def BracketPart.message? : BracketPart → Option String
  | .top _ => none
  | .left => none
  | .bottom _ message => if message.isEmpty then none else some message

namespace Line

theorem message?_bracketRow? (entries : List BracketEntry) (columns indent : Nat)
    (placed : List PlacedChar) (entry : BracketEntry) (place : Nat) :
    (bracketRow? entries columns indent placed entry place).bind Row.message? =
      entry.part.message? := by
  rw [bracketRow?]
  cases entry.part with
  | left => rfl
  | top start =>
      simp only
      split
      · rfl
      · rfl
  | bottom stop message => rfl

theorem filterMap_bracketRows (entries : List BracketEntry) (columns indent : Nat)
    (placed : List PlacedChar) :
    (bracketRows entries columns indent placed).filterMap Row.message? =
      entries.filterMap fun entry => entry.part.message? := by
  have entries_eq := List.zipIdx_map_fst 0 entries
  rw [bracketRows, List.filterMap_filterMap]
  simp only [message?_bracketRow?]
  rw [← entries_eq, List.filterMap_map, entries_eq]
  rfl

/-- The rows of a line print the messages of its marks and of the brackets that end on it. -/
theorem perm_filterMap_rows (tabWidth : Nat) (number : Int) (text : String)
    (marks : List SingleMark) (columns : Nat) (entries : List BracketEntry) :
    ((rows tabWidth number text marks columns entries).filterMap Row.message?).Perm
      (nonempty (marks.map (·.message)) ++
        entries.filterMap fun entry => entry.part.message?) := by
  rw [rows, List.cons_append, List.filterMap_cons, List.filterMap_append, filterMap_bracketRows]
  apply List.Perm.append_right
  split
  · rename_i unmarked
    rw [List.isEmpty_iff.mp unmarked]
    exact List.Perm.nil
  · exact perm_filterMap_markRows _ _ _ _

end Line

namespace Placement

/-- A placement over several lines has its message on its last line. -/
theorem message?_part? {placement : Placement} (several : placement.isSingle = false) (i : Nat) :
    (placement.part? i).bind BracketPart.message? =
      if placement.last.index = i ∧ placement.label.message.isEmpty = false then
        some placement.label.message
      else none := by
  have apart : placement.first.index ≠ placement.last.index := by
    rw [isSingle] at several
    exact of_decide_eq_false several
  rw [part?]
  by_cases last : placement.last.index = i
  · have other : i ≠ placement.first.index := by omega
    rw [if_neg other, if_pos last.symm, Option.bind_some, BracketPart.message?]
    cases placement.label.message.isEmpty with
    | true => simp
    | false => simp [last]
  · have unprinted : ¬ (placement.last.index = i ∧ placement.label.message.isEmpty = false) := by
      intro both
      exact last both.1
    have other : i ≠ placement.last.index := fun same => last same.symm
    rw [if_neg unprinted, if_neg other]
    split
    · rfl
    · split
      · rfl
      · rfl

theorem filterMap_part? {placements : List Placement}
    (several : ∀ placement ∈ placements, placement.isSingle = false) (i : Nat) :
    (placements.filterMap fun placement => (placement.part? i).bind BracketPart.message?) =
      nonempty ((placements.filter fun placement => placement.last.index = i).map
        (·.label.message)) := by
  induction placements with
  | nil => rfl
  | cons placement rest ih =>
      rw [List.forall_mem_cons] at several
      rw [List.filterMap_cons, message?_part? several.1, ih several.2, List.filter_cons]
      by_cases last : placement.last.index = i
      · cases shown : placement.label.message.isEmpty with
        | true => simp [last, shown, nonempty]
        | false => simp [last, shown, nonempty]
      · simp [last]

end Placement

namespace FileRecord

variable (record : FileRecord) (options : Options) (first : Int) (labels : List Label)

/-!
# The messages of a line
-/

/-- The labels that end on a line. -/
def endingAt (i : Nat) : List Label :=
  labels.filter fun label => record.lineAt label.stop = i

theorem filterMap_entriesAt (i : Nat) :
    ((record.entriesAt options first labels i).filterMap fun entry => entry.part.message?) =
      nonempty (((record.endingAt labels i).filter fun label => !record.isSingle label).map
        (·.message)) := by
  have several : ∀ placement ∈ Plan.bracketed (labels.map (record.placement options first)),
      placement.isSingle = false := by
    intro placement member
    have brackets := (List.mem_filter.mp member).2
    exact Bool.not_eq_true' _ ▸ brackets
  have parts : ∀ entry : Placement × Nat,
      ((entry.1.part? i).map fun part =>
        BracketEntry.mk entry.2 entry.1.label.style part).bind
          (fun entry => entry.part.message?) = (entry.1.part? i).bind BracketPart.message? := by
    intro entry
    cases entry.1.part? i with
    | none => rfl
    | some part => rfl
  rw [entriesAt, Plan.bracketEntries, List.filterMap_filterMap]
  simp only [parts]
  calc
    _ = (((Plan.bracketed (labels.map (record.placement options first))).zipIdx).map
          Prod.fst).filterMap fun placement =>
            (placement.part? i).bind BracketPart.message? := List.filterMap_map.symm
    _ = nonempty (((Plan.bracketed (labels.map (record.placement options first))).filter
          fun placement => placement.last.index = i).map (·.label.message)) := by
        rw [List.zipIdx_map_fst, Placement.filterMap_part? several]
    _ = _ := by
        rw [bracketed_placement, List.filter_map, List.map_map, endingAt, List.filter_comm]
        rfl

theorem perm_messages_marksAt (i : Nat) :
    ((record.marksAt options first labels i).map (·.message)).Perm
      (((record.endingAt labels i).filter record.isSingle).map (·.message)) := by
  have single : (labels.filter fun label =>
      record.isSingle label && decide (record.lineAt label.start = i)) =
      (record.endingAt labels i).filter record.isSingle := by
    rw [endingAt, List.filter_filter]
    apply List.filter_congr
    intro label _
    cases same : record.isSingle label with
    | false => rfl
    | true =>
        have lines : record.lineAt label.start = record.lineAt label.stop := of_decide_eq_true same
        rw [lines]
  rw [marksAt, Plan.singleMarks]
  apply ((SingleMark.perm_insertAll _).map SingleMark.message).trans
  rw [← single, List.filter_map, List.map_map, List.map_map]
  exact List.Perm.refl _

/-- The rows of a line print the messages of the labels that end on it. -/
theorem perm_filterMap_lineRows (i : Nat) :
    ((record.lineRows options first labels i).filterMap Row.message?).Perm
      (nonempty ((record.endingAt labels i).map (·.message))) := by
  have marks := (record.perm_messages_marksAt options first labels i).filter
    fun message => !message.isEmpty
  have split := ((List.filter_append_perm record.isSingle (record.endingAt labels i)).map
    Label.message).filter fun message => !message.isEmpty
  rw [List.map_append, List.filter_append] at split
  have rows := Line.perm_filterMap_rows options.tabWidth (first + i)
    (String.ofList (record.lineText i)) (record.marksAt options first labels i)
    (record.columns options first labels) (record.entriesAt options first labels i)
  rw [filterMap_entriesAt] at rows
  exact rows.trans ((marks.append_right _).trans split)

end FileRecord
end SourceReport
