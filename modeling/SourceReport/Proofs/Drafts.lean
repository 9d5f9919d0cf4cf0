import SourceReport.Proofs.DraftedLines
import SourceReport.Proofs.Mentions
import SourceReport.Proofs.RaisedFailures
import SourceReport.Proofs.Rejection

/-!
# Drafts of valid labels

A draft is ended by the first label that is rejected, or that begins or ends on a line whose number
is too long to be counted. A draft that nothing ends is the plan that gathers all labels at once.
-/

namespace SourceReport
namespace Label

/-- Whether the numbers of the lines on which a label begins and ends can be written. -/
def isCounted (base : FileBase) (first : Int) (label : Label) : Bool :=
  Digits.isWritable (first + (base.recordAt label.file).lineAt label.start) &&
    Digits.isWritable (first + (base.recordAt label.file).lineAt label.stop)

/-- What a label ends a draft with. -/
def raised? (base : FileBase) (first : Int) (label : Label) : Option Raised :=
  match label.rejection? base with
  | some failure => some failure.raised
  | none => if label.isCounted base first then none else some (.fault .longNumber)

variable {base : FileBase} {first : Int} {label : Label}

theorem raised?_of_rejection? {failure : Failure} (rejected : label.rejection? base = some failure) :
    label.raised? base first = some failure.raised := by
  rw [raised?, rejected]

theorem raised?_of_isValid (valid : label.IsValid base) :
    label.raised? base first =
      if label.isCounted base first then none else some (.fault .longNumber) := by
  rw [raised?, rejection?_eq_none_iff.mpr valid]

theorem raised?_eq_none_iff :
    label.raised? base first = none ↔
      label.IsValid base ∧ label.isCounted base first = true := by
  rw [← rejection?_eq_none_iff, raised?]
  cases label.rejection? base with
  | some failure => simp
  | none => simp

end Label

/-!
# Short numbers
-/

/-- Every number that counts something in a file can be written. -/
def FileBase.HasShortNumbers (base : FileBase) : Prop :=
  ∀ record ∈ base.records, Digits.isWritable (record.encoded.length + 1) = true

instance (base : FileBase) : Decidable base.HasShortNumbers :=
  inferInstanceAs (Decidable (∀ _ ∈ _, _))

theorem FileRecord.lineAt_le_length (record : FileRecord) (offset : Nat) :
    record.lineAt offset ≤ record.encoded.length :=
  List.count_le_length.trans (List.length_take_le' offset record.encoded)

namespace FileBase

variable {base : FileBase} {id : Scalar} {record : FileRecord}

theorem HasShortNumbers.isWritable (short : base.HasShortNumbers) (held : base.Holds id record)
    {number : Int} (natural : 0 ≤ number) (counts : number ≤ record.encoded.length + 1) :
    Digits.isWritable number = true := by
  rcases held with ⟨place, _, found⟩
  have longest := short record (List.mem_of_getElem? found)
  have zero : Digits.isWritable 0 = true := by decide
  exact Digits.isWritable_of_between zero longest natural counts

theorem HasShortNumbers.isCounted (short : base.HasShortNumbers) {label : Label}
    (valid : label.IsValid base) : label.isCounted base 1 = true := by
  rcases valid with ⟨record, held, _⟩
  have start := record.lineAt_le_length label.start
  have stop := record.lineAt_le_length label.stop
  rw [Label.isCounted, held.recordAt_eq, Bool.and_eq_true]
  constructor
  · exact short.isWritable held (by omega) (by omega)
  · exact short.isWritable held (by omega) (by omega)

end FileBase

namespace Plan

theorem counted_of_isWritable {number : Int} (writable : Digits.isWritable number = true) :
    counted number = .ok (countDigits number) := by
  rw [counted, Fault.ofNumber?, if_pos writable]

theorem counted_of_not_isWritable {number : Int} (long : Digits.isWritable number = false) :
    counted number = .error (.fault .longNumber) := by
  rw [counted, Fault.ofNumber?, long]
  rfl

namespace Draft

variable {base : FileBase} {first : Int} {options : Options} {record : FileRecord} {id : Scalar}
  {label : Label} {labels : List Label}

/-!
# The lines of one label
-/

theorem inside_eq (held : base.Holds id record) {lines : List Nat}
    (known : ∀ line ∈ lines, line < record.lineCount)
    (writable : ∀ line ∈ lines, Digits.isWritable (first + line) = true) :
    inside (base.numberedFrom first) id lines =
      .ok (lines.map record.span,
        (lines.map fun line : Nat => countDigits (first + line)).foldr max 0) := by
  induction lines with
  | nil => rfl
  | cons line rest ih =>
      rw [List.forall_mem_cons] at known writable
      have width : counted ((base.numberedFrom first).lineNumber line) =
          .ok (countDigits (first + line)) := counted_of_isWritable writable.1
      rw [inside, width, held.lineRange_eq, record.lineRange_of_lt known.1, ih known.2 writable.2]
      rfl

theorem contextChanges_eq (held : base.Holds label.file record) :
    contextChanges (base.numberedFrom first) options label (record.lineAt label.start)
        (record.lineAt label.stop) =
      ((record.placement options first label).before ++
        (record.placement options first label).after).map
          fun span => (span, PlannedLine.require) := by
  have start := record.lineAt_lt_lineCount label.start
  have stop := record.lineAt_lt_lineCount label.stop
  rw [contextChanges, Placement.contextBefore_eq held _ _ (Nat.le_of_lt start),
    Placement.contextAfter_eq held _ _ stop]
  rfl

/-- The length of the longest number of the lines strictly inside a label. -/
def widest (first : Int) (placement : Placement) : Nat :=
  (placement.middle.map fun line => countDigits (first + line.index)).foldr max 0

theorem isCounted_iff (held : base.Holds label.file record) :
    label.isCounted base first = true ↔
      Digits.isWritable (first + record.lineAt label.start) = true ∧
        Digits.isWritable (first + record.lineAt label.stop) = true := by
  rw [Label.isCounted, held.recordAt_eq, Bool.and_eq_true]

theorem inside_middle (options : Options) (held : base.Holds label.file record)
    (counted : label.isCounted base first = true) :
    inside (base.numberedFrom first) label.file
        (List.range' (record.lineAt label.start + 1)
          (record.lineAt label.stop - (record.lineAt label.start + 1))) =
      .ok ((record.placement options first label).middle,
        widest first (record.placement options first label)) := by
  have stop := record.lineAt_lt_lineCount label.stop
  rw [isCounted_iff held] at counted
  rw [inside_eq held]
  · rw [widest, FileRecord.placement, List.map_map]
    rfl
  · intro line member
    rw [List.mem_range'_1] at member
    omega
  · intro line member
    rw [List.mem_range'_1] at member
    exact Digits.isWritable_of_between counted.1 counted.2 (by omega) (by omega)

/-- A label marks the lines of a file as they are planned with it. -/
theorem markLines_eq (options : Options) (labels : List Label)
    (held : base.Holds label.file record) (counted : label.isCounted base first = true)
    (file : PlannedFile)
    (lines : file.lines = (touchedLines (labels.map (record.placement options first))).map
      (plannedLine (base.numberedFrom first) options
        (labels.map (record.placement options first))))
    (columns : file.numBrackets =
      (bracketed (labels.map (record.placement options first))).length) :
    let placements := (labels ++ [label]).map (record.placement options first)
    markLines (base.numberedFrom first) options label (record.span (record.lineAt label.start))
        (record.span (record.lineAt label.stop)) file =
      .ok ({ file with
        numBrackets := (bracketed placements).length
        lines := (touchedLines placements).map
          (plannedLine (base.numberedFrom first) options placements) },
        widest first (record.placement options first label)) := by
  intro placements
  have drawn := onLines_changesOf (base.numberedFrom first) options record first labels label
  have length : (bracketed placements).length =
      (bracketed (labels.map (record.placement options first))).length +
        if (record.placement options first label).isSingle then 0 else 1 := by
    show (bracketed ((labels ++ [label]).map _)).length = _
    rw [List.map_append, List.map_singleton, bracketed_concat, List.length_append]
    split <;> rfl
  rw [changesOf, ← contextChanges_eq held, onLines, List.foldl_append, ← onLines, ← onLines,
    ← lines] at drawn
  rw [markLines]
  by_cases single : record.lineAt label.start = record.lineAt label.stop
  · have one : (record.placement options first label).isSingle = true :=
      isSingle_placement.mpr single
    have none : widest first (record.placement options first label) = 0 := by
      rw [widest, FileRecord.placement, single]
      have empty : record.lineAt label.stop - (record.lineAt label.stop + 1) = 0 := by omega
      simp only [empty, List.range'_zero, List.map_nil, List.foldr_nil]
    have same : (record.span (record.lineAt label.start)).index =
        (record.span (record.lineAt label.stop)).index := single
    rw [if_pos same, none]
    rw [one, if_pos rfl] at drawn
    rw [one, if_pos rfl, Nat.add_zero, ← columns] at length
    rw [length, ← drawn]
    rfl
  · have several : (record.placement options first label).isSingle = false := by
      rw [← Bool.not_eq_true, isSingle_placement]
      exact single
    have other : ¬ (record.span (record.lineAt label.start)).index =
        (record.span (record.lineAt label.stop)).index := single
    have middle := inside_middle options held counted
    rw [if_neg other]
    rw [several, if_neg Bool.false_ne_true] at drawn length
    rw [← columns] at drawn length
    rw [length, ← drawn]
    show (inside (base.numberedFrom first) label.file _ >>= _) = _
    rw [show (record.span (record.lineAt label.start)).index = record.lineAt label.start from rfl,
      show (record.span (record.lineAt label.stop)).index = record.lineAt label.stop from rfl, middle]
    rfl

/-!
# The file of a label
-/

theorem anchor_eq (held : base.Holds label.file record) (head : Placement)
    (placements : List Placement) :
    anchor (base.numberedFrom first) label
        (plannedFile (base.numberedFrom first) options head placements) =
      .ok { plannedFile (base.numberedFrom first) options head
          (placements ++ [record.placement options first label]) with
        numBrackets := (bracketed placements).length
        lines := (touchedLines placements).map
          (plannedLine (base.numberedFrom first) options placements) } := by
  have best : (placements ++ [record.placement options first label]).foldl Placement.better head =
      (placements.foldl Placement.better head).better (record.placement options first label) := by
    rw [List.foldl_append]
    rfl
  rw [anchor]
  split
  · rename_i takes
    have replaced : (placements.foldl Placement.better head).better
        (record.placement options first label) = record.placement options first label :=
      if_pos takes
    rw [held.location_eq, plannedFile, plannedFile, best, replaced]
    rfl
  · rename_i keeps
    have kept : (placements.foldl Placement.better head).better
        (record.placement options first label) = placements.foldl Placement.better head :=
      if_neg keeps
    rw [plannedFile, plannedFile, best, kept]

theorem begin_eq (options : Options) (held : base.Holds label.file record) :
    begin (base.numberedFrom first) label =
      .ok (plannedFile (base.numberedFrom first) options (record.placement options first label)
        []) := by
  rw [begin, held.name_eq, held.location_eq]
  rfl

/-- The first placement in a file is the best one as long as it is alone. -/
theorem plannedFile_singleton (lookup : Lookup) (placement : Placement) :
    plannedFile lookup options placement [placement] =
      { plannedFile lookup options placement [] with
        numBrackets := (bracketed [placement]).length
        lines := (touchedLines [placement]).map (plannedLine lookup options [placement]) } := by
  have alone : [placement].foldl Placement.better placement = placement := by
    rw [List.foldl_cons, List.foldl_nil, Placement.better, ite_self]
  rw [plannedFile, plannedFile, alone]
  rfl

/-- A label changes the first file that has its id, or begins one behind all others. -/
theorem onFile_append {change : PlannedFile → Except Raised (PlannedFile × Nat)}
    {front : List PlannedFile} (others : ∀ file ∈ front, file.id.same label.file = false)
    (files : List PlannedFile) :
    onFile (base.numberedFrom first) label change (front ++ files) =
      (onFile (base.numberedFrom first) label change files).map
        fun changed => (front ++ changed.1, changed.2) := by
  induction front with
  | nil =>
      rw [List.nil_append]
      cases onFile (base.numberedFrom first) label change files with
      | error raised => rfl
      | ok changed => rfl
  | cons file rest ih =>
      rw [List.forall_mem_cons] at others
      have other : ¬ file.id.same label.file = true := by
        rw [others.1]
        exact Bool.false_ne_true
      rw [List.cons_append, onFile, if_neg other, ih others.2]
      cases onFile (base.numberedFrom first) label change files with
      | error raised => rfl
      | ok changed => rfl

end Draft

/-!
# The files of all labels
-/

variable {base : FileBase} {first : Int} {options : Options} {record : FileRecord}
  {label : Label} {done labels : List Label}

/-- What is planned for the file that a placement mentions first. -/
def mentionedFile (lookup : Lookup) (options : Options) (placements : List Placement)
    (head : Placement) : PlannedFile :=
  plannedFile lookup options head
    (placements.filter fun placement => head.label.file.same placement.label.file)

theorem plannedFiles_eq (lookup : Lookup) (placements : List Placement) :
    plannedFiles lookup options placements =
      (firstMentions placements).map (mentionedFile lookup options placements) := rfl

/-- A label does not change what is planned for the files that it does not lie in. -/
theorem mentionedFile_concat_of_not_same (lookup : Lookup) (placements : List Placement)
    {head placement : Placement} (other : head.label.file.same placement.label.file = false) :
    mentionedFile lookup options (placements ++ [placement]) head =
      mentionedFile lookup options placements head := by
  rw [mentionedFile, List.filter_append, List.filter_singleton, other, cond_false, List.append_nil]
  rfl

/-- A label changes the file that it lies in. -/
theorem onFile_cons (before : ∀ label ∈ done, label.IsValid base)
    (held : base.Holds label.file record) (counted : label.isCounted base first = true)
    {head : Placement} (same : head.label.file.same label.file = true)
    (known : base.Holds head.label.file record) (files : List PlannedFile) :
    Draft.onFile (base.numberedFrom first) label
        (Draft.markLines (base.numberedFrom first) options label
          (record.span (record.lineAt label.start)) (record.span (record.lineAt label.stop)))
        (mentionedFile (base.numberedFrom first) options
          (done.map (base.placed options first)) head :: files) =
      .ok (mentionedFile (base.numberedFrom first) options
          (done.map (base.placed options first) ++ [base.placed options first label]) head :: files,
        Draft.widest first (record.placement options first label)) := by
  have here : head.label.file.same (base.placed options first label).label.file = true := same
  have marked := Draft.markLines_eq options
    (done.filter fun label => head.label.file.same label.file) held counted
    { plannedFile (base.numberedFrom first) options head
        ((done.filter fun label => head.label.file.same label.file).map
            (record.placement options first) ++ [record.placement options first label]) with
      numBrackets := (bracketed ((done.filter fun label => head.label.file.same label.file).map
        (record.placement options first))).length
      lines := (touchedLines ((done.filter fun label => head.label.file.same label.file).map
        (record.placement options first))).map (plannedLine (base.numberedFrom first) options
          ((done.filter fun label => head.label.file.same label.file).map
            (record.placement options first))) } rfl rfl
  rw [List.map_append, List.map_singleton] at marked
  rw [mentionedFile, mentionedFile, List.filter_append, List.filter_singleton, here, cond_true,
    held.placed_eq options, filter_map_placed options first known before, Draft.onFile,
    if_pos (show (plannedFile _ _ _ _).id.same label.file = true from same),
    Draft.anchor_eq held]
  simp only [bind, Except.bind, marked]
  rfl

/-- A label in a file that was not mentioned yet begins it. -/
theorem onFile_nil (held : base.Holds label.file record)
    (counted : label.isCounted base first = true) :
    Draft.onFile (base.numberedFrom first) label
        (Draft.markLines (base.numberedFrom first) options label
          (record.span (record.lineAt label.start)) (record.span (record.lineAt label.stop))) [] =
      .ok ([plannedFile (base.numberedFrom first) options (record.placement options first label)
          [record.placement options first label]],
        Draft.widest first (record.placement options first label)) := by
  have marked := Draft.markLines_eq options [] held counted
    (plannedFile (base.numberedFrom first) options (record.placement options first label) [])
    rfl rfl
  rw [Draft.onFile, Draft.begin_eq options held, Draft.plannedFile_singleton]
  simp only [bind, Except.bind, marked]
  rfl

theorem holds_of_mem_firstMentions (before : ∀ label ∈ done, label.IsValid base) {head : Placement}
    (member : head ∈ firstMentions (done.map (base.placed options first))) :
    ∃ next, base.Holds head.label.file next := by
  rcases List.mem_map.mp (mem_of_mem_firstMentions member) with ⟨earlier, listed, rfl⟩
  rcases before earlier listed with ⟨next, known, _⟩
  exact ⟨next, known⟩

/-- Only one of the first mentions names the file of a label. -/
theorem firstMentions_apart (before : ∀ label ∈ done, label.IsValid base)
    (held : base.Holds label.file record) {front back : List Placement} {head : Placement}
    (split : firstMentions (done.map (base.placed options first)) = front ++ head :: back)
    (same : head.label.file.same label.file = true) :
    ∀ other ∈ front ++ back, other.label.file.same label.file = false := by
  have mentioned : ∀ other ∈ front ++ head :: back, ∃ next, base.Holds other.label.file next := by
    intro other member
    rw [← split] at member
    exact holds_of_mem_firstMentions before member
  rw [List.forall_mem_append, List.forall_mem_cons] at mentioned
  rcases mentioned.2.1 with ⟨_, known⟩
  have number := (known.same_iff_of_holds held).mp same
  have apart := pairwise_firstMentions (done.map (base.placed options first))
  rw [split, List.pairwise_append, List.pairwise_cons] at apart
  intro other member
  rw [← Bool.not_eq_true]
  intro again
  rcases List.mem_append.mp member with earlier | later
  · rcases mentioned.1 other earlier with ⟨_, holds⟩
    have whole := (holds.same_iff_of_holds held).mp again
    have clash := apart.2.2 other earlier head List.mem_cons_self
    rw [(holds.same_iff_of_holds known).mpr (whole.trans number.symm)] at clash
    cases clash
  · rcases mentioned.2.2 other later with ⟨_, holds⟩
    have whole := (holds.same_iff_of_holds held).mp again
    have clash := apart.2.1.1 other later
    rw [(known.same_iff_of_holds holds).mpr (number.trans whole.symm)] at clash
    cases clash

/-- A file without a first mention holds no label but the one that begins it. -/
theorem mentionedFile_concat_of_new (before : ∀ label ∈ done, label.IsValid base)
    (held : base.Holds label.file record)
    (others : ∀ head ∈ firstMentions (done.map (base.placed options first)),
      head.label.file.same label.file = false) :
    mentionedFile (base.numberedFrom first) options
        (done.map (base.placed options first) ++ [base.placed options first label])
        (base.placed options first label) =
      plannedFile (base.numberedFrom first) options (record.placement options first label)
        [record.placement options first label] := by
  have known : ∀ placement ∈ done.map (base.placed options first),
      ∃ next, base.Holds placement.label.file next := by
    intro placement member
    rcases List.mem_map.mp member with ⟨earlier, listed, rfl⟩
    rcases before earlier listed with ⟨next, holds, _⟩
    exact ⟨next, holds⟩
  have none : (done.map (base.placed options first)).filter
      (fun placement => (base.placed options first label).label.file.same placement.label.file) =
        [] := by
    rw [List.filter_eq_nil_iff]
    intro placement member same
    rcases known placement member with ⟨_, holds⟩
    have number := (held.same_iff_of_holds holds).mp same
    have reflexive : ∀ placement ∈ done.map (base.placed options first),
        placement.label.file.same placement.label.file = true := by
      intro next listed
      rcases known next listed with ⟨_, found⟩
      exact (found.same_iff_of_holds found).mpr rfl
    rcases exists_firstMention reflexive member with ⟨head, mentioned, again⟩
    rcases holds_of_mem_firstMentions before mentioned with ⟨_, found⟩
    have clash := others head mentioned
    rw [(found.same_iff_of_holds held).mpr
      (((found.same_iff_of_holds holds).mp again).trans number.symm)] at clash
    cases clash
  have self : (base.placed options first label).label.file.same
      (base.placed options first label).label.file = true :=
    (held.same_iff_of_holds held).mpr rfl
  rw [mentionedFile, List.filter_append, none, List.filter_singleton, self, cond_true,
    held.placed_eq options]
  rfl

/-- One more label turns the files that are planned without it into those planned with it. -/
theorem onFile_plannedFiles (options : Options) (before : ∀ label ∈ done, label.IsValid base)
    (held : base.Holds label.file record) (counted : label.isCounted base first = true) :
    Draft.onFile (base.numberedFrom first) label
        (Draft.markLines (base.numberedFrom first) options label
          (record.span (record.lineAt label.start)) (record.span (record.lineAt label.stop)))
        (plannedFiles (base.numberedFrom first) options
          (done.map (base.placed options first))) =
      .ok (plannedFiles (base.numberedFrom first) options
          ((done ++ [label]).map (base.placed options first)),
        Draft.widest first (record.placement options first label)) := by
  have kept : ∀ heads : List Placement,
      (∀ head ∈ heads, head.label.file.same label.file = false) →
        heads.map (mentionedFile (base.numberedFrom first) options
            (done.map (base.placed options first) ++ [base.placed options first label])) =
          heads.map (mentionedFile (base.numberedFrom first) options
            (done.map (base.placed options first))) := by
    intro heads others
    apply List.map_congr_left
    intro head member
    exact mentionedFile_concat_of_not_same _ _ (others head member)
  have others : ∀ heads : List Placement,
      (∀ head ∈ heads, head.label.file.same label.file = false) →
        ∀ file ∈ heads.map (mentionedFile (base.numberedFrom first) options
          (done.map (base.placed options first))), file.id.same label.file = false := by
    intro heads apart file member
    rcases List.mem_map.mp member with ⟨head, listed, rfl⟩
    exact apart head listed
  rw [plannedFiles_eq, plannedFiles_eq, List.map_append, List.map_singleton, firstMentions_concat,
    addMention]
  split
  · rename_i found
    rcases List.any_eq_true.mp found with ⟨head, member, same⟩
    rcases List.append_of_mem member with ⟨front, back, split⟩
    have apart := firstMentions_apart before held split same
    rcases holds_of_mem_firstMentions before member with ⟨_, known⟩
    have again := held.of_whole? ((known.same_iff_of_holds held).mp same).symm
    rw [List.forall_mem_append] at apart
    rw [split, List.map_append, List.map_cons, List.map_append, List.map_cons, kept front apart.1,
      kept back apart.2, Draft.onFile_append (others front apart.1),
      onFile_cons before held counted same again]
    rfl
  · rename_i new
    have apart : ∀ head ∈ firstMentions (done.map (base.placed options first)),
        head.label.file.same label.file = false := by
      intro head member
      rw [← Bool.not_eq_true]
      intro same
      exact new (List.any_eq_true.mpr ⟨head, member, same⟩)
    rw [List.map_append, List.map_singleton, kept _ apart,
      mentionedFile_concat_of_new before held apart]
    conv_lhs => rw [← List.append_nil (List.map _ _)]
    rw [Draft.onFile_append (others _ apart), onFile_nil held counted]
    rfl

/-!
# The draft of all labels
-/

theorem foldl_max (widths : List Nat) (width : Nat) :
    widths.foldl max width = max width (widths.foldr max 0) := by
  induction widths generalizing width with
  | nil => rw [List.foldl_nil, List.foldr_nil, Nat.max_zero]
  | cons next rest ih => rw [List.foldl_cons, List.foldr_cons, ih, Nat.max_assoc]

theorem gutterWidth_concat (lookup : Lookup) (placements : List Placement) (placement : Placement) :
    gutterWidth lookup (placements ++ [placement]) =
      max (max (gutterWidth lookup placements)
          (max (countDigits (lookup.lineNumber placement.first.index))
            (countDigits (lookup.lineNumber placement.last.index))))
        ((placement.middle.map fun line => countDigits (lookup.lineNumber line.index)).foldr
          max 0) := by
  rw [gutterWidth, List.flatMap_append, List.foldl_append, ← gutterWidth, List.flatMap_singleton,
    List.map_cons, List.map_cons, List.foldl_cons, List.foldl_cons, foldl_max,
    Nat.max_assoc (gutterWidth lookup placements)]

namespace Draft

/-- The draft has gathered the labels, and kept the bytes of the files that they lie in. -/
structure Gathers (base : FileBase) (first : Int) (options : Options) (done : List Label)
    (draft : Draft) : Prop where
  valid : ∀ label ∈ done, label.IsValid base
  files : draft.files = plannedFiles (base.numberedFrom first) options
    (done.map (base.placed options first))
  padding : draft.padding = gutterWidth (base.numberedFrom first)
    (done.map (base.placed options first))
  encoded : ∀ known ∈ draft.encoded,
    ∃ record, base.Holds known.1 record ∧ known.2 = record.encoded

variable {draft : Draft}

theorem gathers_nil (base : FileBase) (first : Int) (options : Options) :
    ({} : Draft).Gathers base first options [] where
  valid := List.forall_mem_nil _
  files := rfl
  padding := rfl
  encoded := List.forall_mem_nil _

/-- The bytes of a known file are those of its record, whether or not they were asked for before. -/
theorem Gathers.bytes_eq (h : draft.Gathers base first options done)
    (held : base.Holds label.file record) :
    ∃ next : Draft, next.Gathers base first options done ∧
      draft.bytes (base.numberedFrom first) label.file = .ok (next, record.encoded) := by
  rw [bytes]
  split
  · rename_i known found
    have same := List.find?_some found
    rcases h.encoded known (List.mem_of_find?_eq_some found) with ⟨other, holds, bytes⟩
    have again := holds.of_same held.isSome_whole? same
    refine ⟨draft, h, ?_⟩
    rw [bytes, again.unique held]
  · refine ⟨{ draft with encoded := draft.encoded ++ [(label.file, record.encoded)] }, ?_, ?_⟩
    · refine { h with encoded := ?_ }
      rw [List.forall_mem_append, List.forall_mem_singleton]
      exact ⟨h.encoded, record, held, rfl⟩
    · rw [held.encoded_eq]
      rfl

/-- A valid label that is counted is gathered. -/
theorem Gathers.addLabel_eq (h : draft.Gathers base first options done)
    (valid : label.IsValid base) (counted : label.isCounted base first = true) :
    ∃ next : Draft, next.Gathers base first options (done ++ [label]) ∧
      addLabel (base.numberedFrom first) options draft label = .ok next := by
  have all : ∀ next ∈ done ++ [label], next.IsValid base :=
    List.forall_mem_append.mpr ⟨h.valid, List.forall_mem_singleton.mpr valid⟩
  rcases valid with ⟨record, held, fits⟩
  rcases h.bytes_eq held with ⟨seen, gathered, bytes⟩
  have start := record.lineAt_lt_lineCount label.start
  have stop := record.lineAt_lt_lineCount label.stop
  have widths := (isCounted_iff held).mp counted
  have firstWidth : Plan.counted ((base.numberedFrom first).lineNumber
      (record.lineAt label.start : Nat)) = .ok _ := counted_of_isWritable widths.1
  have lastWidth : Plan.counted ((base.numberedFrom first).lineNumber
      (record.lineAt label.stop : Nat)) = .ok _ := counted_of_isWritable widths.2
  have added := onFile_plannedFiles options h.valid held counted
  have width := gutterWidth_concat (base.numberedFrom first) (done.map (base.placed options first))
    (base.placed options first label)
  rw [held.placed_eq options] at width
  refine ⟨{ seen with
    files := plannedFiles (base.numberedFrom first) options
      ((done ++ [label]).map (base.placed options first))
    padding := gutterWidth (base.numberedFrom first)
      ((done ++ [label]).map (base.placed options first)) }, ⟨all, rfl, rfl, gathered.encoded⟩, ?_⟩
  rw [addLabel, bytes]
  simp only [bind, Except.bind, raising, Except.mapError, fits.checkRange_eq, held.lineIndex_eq,
    held.lineRange_eq, record.lineRange_of_lt start, record.lineRange_of_lt stop, firstWidth,
    lastWidth]
  rw [← gathered.files] at added
  have marked : onFile (base.numberedFrom first) label
      (markLines (base.numberedFrom first) options label
        ⟨record.lineAt label.start, (record.startOf (record.lineAt label.start),
          record.startOf (record.lineAt label.start + 1))⟩
        ⟨record.lineAt label.stop, (record.startOf (record.lineAt label.stop),
          record.startOf (record.lineAt label.stop + 1))⟩) seen.files = _ := added
  rw [marked, gathered.padding, List.map_append, List.map_singleton, held.placed_eq options, width]
  rfl

/-- A valid label on a line whose number is too long ends the draft in a fault. -/
theorem Gathers.addLabel_of_not_isCounted (h : draft.Gathers base first options done)
    (valid : label.IsValid base) (long : label.isCounted base first = false) :
    addLabel (base.numberedFrom first) options draft label = .error (.fault .longNumber) := by
  rcases valid with ⟨record, held, fits⟩
  rcases h.bytes_eq held with ⟨seen, gathered, bytes⟩
  have start := record.lineAt_lt_lineCount label.start
  have stop := record.lineAt_lt_lineCount label.stop
  rw [addLabel, bytes]
  simp only [bind, Except.bind, raising, Except.mapError, fits.checkRange_eq, held.lineIndex_eq,
    held.lineRange_eq, record.lineRange_of_lt start, record.lineRange_of_lt stop]
  cases firstLong : Digits.isWritable (first + record.lineAt label.start) with
  | false =>
      have width : Plan.counted ((base.numberedFrom first).lineNumber
          (record.lineAt label.start : Nat)) = _ := counted_of_not_isWritable firstLong
      rw [width]
  | true =>
      have lastLong : Digits.isWritable (first + record.lineAt label.stop) = false := by
        rw [← Bool.not_eq_true]
        intro last
        rw [(isCounted_iff held).mpr ⟨firstLong, last⟩] at long
        cases long
      have width : Plan.counted ((base.numberedFrom first).lineNumber
          (record.lineAt label.start : Nat)) = .ok _ := counted_of_isWritable firstLong
      have lastWidth : Plan.counted ((base.numberedFrom first).lineNumber
          (record.lineAt label.stop : Nat)) = _ := counted_of_not_isWritable lastLong
      rw [width, lastWidth]

theorem Gathers.bytes_of_not_holds (h : draft.Gathers base first options done)
    (number : label.file.whole?.isSome = true)
    (missing : ∀ record, ¬ base.Holds label.file record) :
    draft.bytes (base.numberedFrom first) label.file =
      .error (Failure.fileMissing label.file).raised := by
  rw [bytes]
  split
  · rename_i known found
    have same := List.find?_some found
    rcases h.encoded known (List.mem_of_find?_eq_some found) with ⟨other, holds, _⟩
    exact absurd (holds.of_same number same) (missing other)
  · rw [FileBase.encoded_of_not_holds missing]
    rfl

/-- A rejected label ends the draft with what is raised for its failure. -/
theorem Gathers.addLabel_of_rejection? (h : draft.Gathers base first options done)
    (number : label.file.whole?.isSome = true) {failure : Failure}
    (rejected : label.rejection? base = some failure) :
    addLabel (base.numberedFrom first) options draft label = .error failure.raised := by
  by_cases known : ∃ record, base.Holds label.file record
  · rcases known with ⟨record, held⟩
    rcases h.bytes_eq held with ⟨seen, _, bytes⟩
    rw [addLabel, bytes]
    simp only [bind, Except.bind, raising, Except.mapError,
      Label.checkRange_of_rejection? held rejected]
  · have missing : ∀ record, ¬ base.Holds label.file record := by
      intro record held
      exact known ⟨record, held⟩
    rw [Label.rejection?_of_not_holds missing] at rejected
    cases rejected
    rw [addLabel, h.bytes_of_not_holds number missing]
    rfl

theorem Gathers.addLabels_eq (h : draft.Gathers base first options done)
    (numbers : ∀ label ∈ labels, label.file.whole?.isSome = true) :
    match labels.findSome? fun label => label.raised? base first with
    | some raised =>
        addLabels (base.numberedFrom first) options draft labels = .error raised
    | none => ∃ next : Draft, next.Gathers base first options (done ++ labels) ∧
        addLabels (base.numberedFrom first) options draft labels = .ok next := by
  -- Each label extends what the draft has gathered, until one ends it.
  induction labels generalizing draft done with
  | nil =>
      rw [List.findSome?_nil, List.append_nil]
      exact ⟨draft, h, rfl⟩
  | cons label rest ih =>
      rw [List.forall_mem_cons] at numbers
      rw [List.findSome?_cons, addLabels]
      cases reason : label.rejection? base with
      | some failure =>
          rw [Label.raised?_of_rejection? reason, h.addLabel_of_rejection? numbers.1 reason]
          rfl
      | none =>
          have valid := Label.rejection?_eq_none_iff.mp reason
          rw [Label.raised?_of_isValid valid]
          cases counted : label.isCounted base first with
          | false =>
              rw [h.addLabel_of_not_isCounted valid counted]
              rfl
          | true =>
              rcases h.addLabel_eq valid counted with ⟨next, gathered, added⟩
              have later := ih gathered numbers.2
              rw [List.append_assoc] at later
              rw [added]
              exact later

end Draft

/-- The draft of labels is the plan that gathers them at once, unless a label ends it. -/
theorem drafted_eq (numbers : ∀ label ∈ labels, label.file.whole?.isSome = true) :
    drafted (base.numberedFrom first) options labels =
      match labels.findSome? fun label => label.raised? base first with
      | some raised => .error raised
      | none => .ok {
          files := plannedFiles (base.numberedFrom first) options
            (labels.map (base.placed options first))
          padding := gutterWidth (base.numberedFrom first)
            (labels.map (base.placed options first)) } := by
  have run := (Draft.gathers_nil base first options).addLabels_eq numbers
  rw [drafted]
  cases stop : labels.findSome? fun label => label.raised? base first with
  | some raised =>
      rw [stop] at run
      rw [run]
      rfl
  | none =>
      rw [stop] at run
      rcases run with ⟨next, gathered, added⟩
      rw [added]
      simp only [bind, Except.bind, gathered.files, gathered.padding]
      rfl

theorem numbers_of_valid (valid : ∀ label ∈ labels, label.IsValid base) :
    ∀ label ∈ labels, label.file.whole?.isSome = true := by
  intro label listed
  rcases valid label listed with ⟨record, held, _⟩
  exact held.isSome_whole?

/-- Valid labels on lines with numbers that can be counted are drafted as they are planned. -/
theorem drafted_eq_ofDiagnostic {diagnostic : Diagnostic}
    (valid : ∀ label ∈ diagnostic.labels, label.IsValid base)
    (counted : ∀ label ∈ diagnostic.labels, label.isCounted base first = true) :
    drafted (base.numberedFrom first) options diagnostic.labels =
      (ofDiagnostic (base.numberedFrom first) options diagnostic).mapError Raised.failure := by
  have going : (diagnostic.labels.findSome? fun label => label.raised? base first) = none := by
    rw [List.findSome?_eq_none_iff]
    intro label listed
    exact Label.raised?_eq_none_iff.mpr ⟨valid label listed, counted label listed⟩
  rw [drafted_eq (numbers_of_valid valid), going, ofDiagnostic_eq valid]
  rfl

end Plan
end SourceReport
