import SourceReport.Document.Report
import SourceReport.Proofs.DocumentFaults
import SourceReport.Proofs.Reports

/-!
# Faults of drawings

The entries of a document are drawn one after another. One with a label that is not valid is refused.
Another one stops the drawing if it has a note that is no text, or a label on one line with such a
message, or a row with a piece that cannot be made.
-/

namespace SourceReport
namespace Document

/-!
# Stretches and steps
-/

namespace Stretch

/-- The stretches are the steps with halts among them, or in the place of some. -/
structure Covers (stretches : List Stretch) (steps : List Step) (halts : Prop) : Prop where
  mem_steps : ∀ step, .step step ∈ stretches → step ∈ steps
  exists_halt_iff : (∃ fault, .halt fault ∈ stretches) ↔ halts
  eq_of_whole : ¬ halts → stretches = steps.map .step

namespace Covers

variable {stretches others : List Stretch} {steps next : List Step} {halts more : Prop}

theorem congr (h : Covers stretches steps halts) (same : halts ↔ more) :
    Covers stretches steps more :=
  ⟨h.mem_steps, h.exists_halt_iff.trans same, fun whole => h.eq_of_whole (mt same.mp whole)⟩

theorem ofSteps (steps : List Step) : Covers (steps.map .step) steps False := by
  refine ⟨?_, ?_, fun _ => rfl⟩
  · intro step member
    rcases List.mem_map.mp member with ⟨_, listed, same⟩
    cases same
    exact listed
  · refine iff_false_intro ?_
    rintro ⟨fault, member⟩
    rcases List.mem_map.mp member with ⟨_, _, same⟩
    cases same

theorem ofHalt (fault : Fault) (steps : List Step) : Covers [.halt fault] steps True :=
  ⟨fun _ member => (nomatch List.mem_singleton.mp member),
    iff_true_intro ⟨fault, List.mem_singleton_self _⟩, fun whole => absurd trivial whole⟩

theorem append (left : Covers stretches steps halts) (right : Covers others next more) :
    Covers (stretches ++ others) (steps ++ next) (halts ∨ more) := by
  refine ⟨?_, ?_, ?_⟩
  · intro step member
    rcases List.mem_append.mp member with first | second
    · exact List.mem_append_left next (left.mem_steps step first)
    · exact List.mem_append_right steps (right.mem_steps step second)
  · simp only [List.mem_append, exists_or, left.exists_halt_iff, right.exists_halt_iff]
  · intro whole
    rw [not_or] at whole
    rw [left.eq_of_whole whole.1, right.eq_of_whole whole.2, List.map_append]

theorem flatMap {α : Type} {parts : List α} {stretches : α → List Stretch} {steps : α → List Step}
    {halts : α → Prop} (h : ∀ part ∈ parts, Covers (stretches part) (steps part) (halts part)) :
    Covers (parts.flatMap stretches) (parts.flatMap steps) (∃ part ∈ parts, halts part) := by
  induction parts with
  | nil => exact (ofSteps []).congr (by simp)
  | cons part rest ih =>
      rw [List.forall_mem_cons] at h
      exact (h.1.append (ih h.2)).congr (by simp)

end Covers

/-- The fault of the first stretch that ends a drawing. -/
def fault? (ofStep? : Step → Option Fault) : Stretch → Option Fault
  | .step next => ofStep? next
  | .halt found => some found

theorem findSome?_fault?_eq (ofStep? : Step → Option Fault) (stretches : List Stretch) :
    stretches.findSome? (fault? ofStep?) =
      ((upToHalt stretches).1.findSome? ofStep?).or (upToHalt stretches).2 := by
  induction stretches with
  | nil => rfl
  | cons stretch rest ih =>
      cases stretch with
      | halt found => rfl
      | step next =>
          rw [List.findSome?_cons, fault?, upToHalt, List.findSome?_cons]
          cases ofStep? next with
          | some found => rfl
          | none => exact ih

theorem mem_of_mem_upToHalt {stretches : List Stretch} {step : Step}
    (member : step ∈ (upToHalt stretches).1) : .step step ∈ stretches := by
  induction stretches with
  | nil => cases member
  | cons stretch rest ih =>
      cases stretch with
      | halt found => cases member
      | step next =>
          rcases List.mem_cons.mp member with rfl | later
          · exact List.mem_cons_self
          · exact List.mem_cons_of_mem _ (ih later)

theorem upToHalt_map_step (steps : List Step) : upToHalt (steps.map .step) = (steps, none) := by
  induction steps with
  | nil => rfl
  | cons step rest ih => rw [List.map_cons, upToHalt, ih]

/-- What ends a drawing is a step or a halt. -/
theorem Covers.isSome_findSome?_iff {stretches : List Stretch} {steps : List Step} {halts : Prop}
    (h : Covers stretches steps halts) (ofStep? : Step → Option Fault) :
    (stretches.findSome? (fault? ofStep?)).isSome = true ↔
      (∃ step ∈ steps, (ofStep? step).isSome = true) ∨ halts := by
  rw [List.findSome?_isSome_iff]
  constructor
  · rintro ⟨stretch, member, ends⟩
    cases stretch with
    | step next => exact Or.inl ⟨next, h.mem_steps next member, ends⟩
    | halt found => exact Or.inr (h.exists_halt_iff.mp ⟨found, member⟩)
  · intro ends
    by_cases halt : halts
    · rcases h.exists_halt_iff.mpr halt with ⟨found, member⟩
      exact ⟨.halt found, member, rfl⟩
    · rcases ends.resolve_right halt with ⟨step, member, fails⟩
      refine ⟨.step step, ?_, fails⟩
      rw [h.eq_of_whole halt]
      exact List.mem_map_of_mem member

end Stretch

namespace Entry

open Stretch

section Covered

variable (lookup : Lookup) (options : Options) (kind : EmitterKind) (entry : Entry)

theorem covers_lineStretches (padding : Nat) (file : PlannedFile) (bytes : List UInt8)
    (lines : List PlannedLine) :
    Covers (lineStretches lookup options kind entry padding file bytes lines)
      (View.Rich.linesSteps lookup options padding file bytes lines)
      (∃ line ∈ lines, hasUndrawableMark lookup file entry line.index = true) := by
  induction lines with
  | nil => exact (Covers.ofSteps []).congr (by simp)
  | cons line rest ih =>
      have mark : Covers (markStretches lookup kind entry file line) []
          (hasUndrawableMark lookup file entry line.index = true) := by
        rw [markStretches]
        split
        · rename_i found
          exact (Covers.ofHalt _ []).congr (iff_of_true trivial found)
        · rename_i found
          exact (Covers.ofSteps []).congr (iff_of_false id found)
      have drawn := (Covers.ofSteps
        (View.Rich.plannedLineSteps options padding file bytes line)).append mark
      rw [List.append_nil] at drawn
      -- What stands between this line and the next one depends on whether there is one.
      cases rest with
      | nil =>
          exact ((drawn.append (Covers.ofSteps [])).append ih).congr (by simp)
      | cons next tail =>
          exact ((drawn.append (Covers.ofSteps
            (View.Rich.betweenSteps lookup options padding file bytes line next))).append
              ih).congr (by simp)

/-- Below one of the lines of a file there is a mark whose message cannot be drawn. -/
def HasUndrawableFile (file : PlannedFile) : Prop :=
  (∃ bytes, lookup.encoded file.id = .ok bytes) ∧
    ∃ line ∈ file.renderedLines, hasUndrawableMark lookup file entry line.index = true

theorem covers_fileStretches (padding : Nat) (file : PlannedFile) (isClosed : Bool) :
    Covers (fileStretches lookup options kind entry padding file isClosed)
      (View.Rich.fileSteps lookup options padding file isClosed)
      (entry.HasUndrawableFile lookup file) := by
  rw [fileStretches, View.Rich.fileSteps, HasUndrawableFile]
  cases lookup.encoded file.id with
  | error failure => exact (Covers.ofSteps [.fail failure]).congr (by simp)
  | ok bytes =>
      have lines := covers_lineStretches lookup options kind entry padding file bytes
        file.renderedLines
      have traced := (Covers.ofSteps [.trace (.drawing file.renderedLines.length file.lines.length
        file.name)]).append lines
      have start : Covers (if file.lines.isEmpty then []
          else [.step (.row padding (.start file.locus)),
            .step (View.Rich.emptyRow padding file)])
          (if file.lines.isEmpty then []
            else [.row padding (.start file.locus), View.Rich.emptyRow padding file]) False := by
        split
        · exact Covers.ofSteps []
        · exact Covers.ofSteps [_, _]
      have closing : Covers (if isClosed then [.step (View.Rich.emptyRow padding file)] else [])
          (if isClosed then [View.Rich.emptyRow padding file] else []) False := by
        split
        · exact Covers.ofSteps [_]
        · exact Covers.ofSteps []
      exact ((start.append traced).append closing).congr (by simp)

theorem covers_filesStretches (padding : Nat) (files : List PlannedFile) :
    Covers (filesStretches lookup options kind entry padding files)
      (View.Rich.filesSteps lookup options padding (!entry.diagnostic.notes.isEmpty) files)
      (∃ file ∈ files, entry.HasUndrawableFile lookup file) := by
  have notes : entry.diagnostic.notes.isEmpty = entry.notes.isEmpty := List.isEmpty_map
  induction files with
  | nil => exact (Covers.ofSteps []).congr (by simp)
  | cons file rest ih =>
      rw [filesStretches, View.Rich.filesSteps]
      rw [notes] at ih ⊢
      exact ((covers_fileStretches lookup options kind entry padding file _).append ih).congr
        (by simp)

theorem covers_noteStretches (padding : Nat) (notes : List Value) :
    Covers (noteStretches padding notes) (View.noteSteps padding (notes.map (·.shown)))
      (∃ note ∈ notes, note.isText = false) := by
  rw [View.noteSteps, List.flatMap_map]
  refine Covers.flatMap fun note _ => ?_
  split
  · rename_i text
    have rows := Covers.ofSteps ((View.noteRows note.shown).map (Step.row padding))
    rw [List.map_map] at rows
    exact rows.congr (by simp [text])
  · rename_i noText
    exact (Covers.ofHalt _ _).congr (by simp [noText])

/-- Something is to be drawn for an entry that is no text. -/
def Halts : Prop :=
  (∃ plan, options.displayStyle = .rich ∧
    Plan.ofDiagnostic lookup options entry.diagnostic = .ok plan ∧
      ∃ file ∈ plan.files, entry.HasUndrawableFile lookup file) ∨
  options.displayStyle ≠ .short ∧ ∃ note ∈ entry.notes, note.isText = false

theorem covers_shortStretches (withNotes : Bool) :
    Covers (shortStretches lookup entry withNotes)
      (View.Short.headerSteps lookup entry.diagnostic ++
        (if withNotes then View.noteSteps 0 entry.diagnostic.notes else []))
      (withNotes = true ∧ ∃ note ∈ entry.notes, note.isText = false) := by
  have header := Covers.ofSteps (View.Short.headerSteps lookup entry.diagnostic)
  cases withNotes with
  | true => exact (header.append (covers_noteStretches 0 entry.notes)).congr (by simp)
  | false => exact (header.append (Covers.ofSteps [])).congr (by simp)

/-- An entry is drawn with the steps of its diagnostic, or refused like it. -/
theorem covers_stretches :
    (∃ failure, entry.stretches lookup options kind = .error failure ∧
      View.steps lookup options entry.diagnostic = [.fail failure]) ∨
    ∃ stretches, entry.stretches lookup options kind = .ok stretches ∧
      Covers stretches (View.steps lookup options entry.diagnostic)
        (entry.Halts lookup options) := by
  rw [stretches, View.steps, Halts]
  cases options.displayStyle with
  | rich =>
      simp only [View.Rich.steps]
      cases planned : Plan.ofDiagnostic lookup options entry.diagnostic with
      | error failure => exact Or.inl ⟨failure, rfl, rfl⟩
      | ok plan =>
          refine Or.inr ⟨_, rfl, ?_⟩
          have files := covers_filesStretches lookup options kind entry plan.padding plan.files
          have notes := covers_noteStretches plan.padding entry.notes
          have begun := (Covers.ofSteps
            [.trace (.planned entry.diagnostic.labels.length plan.files.length plan.padding),
              .row plan.padding (.header none entry.diagnostic.code
                entry.diagnostic.message)]).append files
          have whole := (begun.append notes).append
            (Covers.ofSteps [.row plan.padding .blank])
          exact whole.congr (by simp)
  | medium =>
      simp only [View.Short.steps]
      cases View.Short.checkLabels lookup entry.diagnostic.labels with
      | error failure => exact Or.inl ⟨failure, rfl, rfl⟩
      | ok checked =>
          exact Or.inr ⟨_, rfl, (covers_shortStretches lookup entry true).congr (by simp)⟩
  | short =>
      simp only [View.Short.steps]
      cases View.Short.checkLabels lookup entry.diagnostic.labels with
      | error failure => exact Or.inl ⟨failure, rfl, rfl⟩
      | ok checked =>
          exact Or.inr ⟨_, rfl, (covers_shortStretches lookup entry false).congr (by simp)⟩

end Covered

end Entry

/-!
# What stops an entry
-/

variable {machine : Machine} {base : FileBase} {options : Options} {kind : EmitterKind}
  {entry : Entry}

/-- The message cannot be drawn beside a mark: it is no text, but counts as one. -/
def LabelEntry.IsUndrawable (base : FileBase) (entry : LabelEntry) : Prop :=
  entry.message.isText = false ∧ entry.message.isBlank = false ∧
    (base.recordAt entry.label.file).isSingle entry.label = true

namespace Entry

def IsValid (base : FileBase) (entry : Entry) : Prop :=
  ∀ label ∈ entry.diagnostic.labels, label.IsValid base

/-- What stops the drawing of an entry whose labels are valid. -/
inductive Stops (machine : Machine) (base : FileBase) (options : Options) (kind : EmitterKind)
    (entry : Entry) : Prop
  | mark {label : LabelEntry} : options.displayStyle = .rich → label ∈ entry.labels →
      label.IsUndrawable base → Stops machine base options kind entry
  | note {note : Value} : options.displayStyle ≠ .short → note ∈ entry.notes →
      note.isText = false → Stops machine base options kind entry
  | count {label : Label} : options.displayStyle = .rich → label ∈ entry.diagnostic.labels →
      label.isCounted base 1 = false → Stops machine base options kind entry
  | row {step : Step} : step ∈ View.steps base.lookup options entry.diagnostic →
      (Overflow.ofStep? machine (Report.pencil options kind.theme entry.diagnostic)
        step).isSome = true → Stops machine base options kind entry

/-- A label is not valid, but a number in what is to be told about it is too long to be written. -/
def IsUnworded (base : FileBase) (options : Options) (entry : Entry) : Prop :=
  ¬ entry.IsValid base ∧
    ∃ fault, View.stop? base 1 options entry.diagnostic = some (.fault fault)

/-- An entry that is drawn completely. -/
def IsDrawn (machine : Machine) (base : FileBase) (options : Options) (kind : EmitterKind)
    (entry : Entry) : Prop :=
  entry.IsValid base ∧ ¬ entry.Stops machine base options kind

/-- Below a line there is a mark with such a message if one of the labels there has it. -/
theorem hasUndrawableMark_iff (valid : entry.IsValid base)
    (h : Plan.FileOf base options 1 entry.diagnostic file record) (line : Nat) :
    hasUndrawableMark base.lookup file entry line = true ↔
      ∃ label ∈ entry.labels, file.id.same label.label.file = true ∧
        label.message.isText = false ∧ label.message.isBlank = false ∧
          record.lineAt label.label.start = line ∧ record.lineAt label.label.stop = line := by
  have here : ∀ label ∈ entry.labels, (file.id.same label.label.file &&
      isUndrawable base.lookup line label) = true ↔ file.id.same label.label.file = true ∧
        label.message.isText = false ∧ label.message.isBlank = false ∧
          record.lineAt label.label.start = line ∧ record.lineAt label.label.stop = line := by
    intro label listed
    rw [Bool.and_eq_true]
    refine and_congr_right fun same => ?_
    rcases valid label.label (List.mem_map_of_mem listed) with ⟨other, held, _⟩
    have again := h.held.of_same held.isSome_whole? same
    have lineOf : ∀ offset : Nat, base.lookup.lineIndex label.label.file offset =
        .ok (record.lineAt offset) := again.lineIndex_eq
    simp only [isUndrawable, lineOf, Except.toOption, Option.some.injEq, Bool.and_eq_true,
      Bool.not_eq_true', decide_eq_true_eq, and_assoc]
  rw [hasUndrawableMark, List.any_eq_true]
  constructor
  · rintro ⟨label, listed, holds⟩
    exact ⟨label, listed, (here label listed).mp holds⟩
  · rintro ⟨label, listed, holds⟩
    exact ⟨label, listed, (here label listed).mpr holds⟩

/-- A mark stands below one of the lines of its label's file. -/
theorem exists_hasUndrawableMark_iff (valid : entry.IsValid base) {plan : Plan}
    (planned : Plan.ofDiagnostic base.lookup options entry.diagnostic = .ok plan) :
    (∃ file ∈ plan.files, ∃ line ∈ file.renderedLines,
      hasUndrawableMark base.lookup file entry line.index = true) ↔
      ∃ label ∈ entry.labels, label.IsUndrawable base := by
  constructor
  · rintro ⟨file, known, line, shown, holds⟩
    rcases Plan.exists_fileOf valid planned known with ⟨record, h⟩
    rcases (hasUndrawableMark_iff valid h line.index).mp holds with
      ⟨label, listed, same, noText, noBlank, start, stop⟩
    rcases valid label.label (List.mem_map_of_mem listed) with ⟨other, held, _⟩
    refine ⟨label, listed, noText, noBlank, ?_⟩
    have again := h.held.of_same held.isSome_whole? same
    rw [again.recordAt_eq, FileRecord.isSingle, start, stop, decide_eq_true rfl]
  · rintro ⟨label, listed, noText, noBlank, single⟩
    have given := List.mem_map_of_mem (f := LabelEntry.label) listed
    rcases Plan.exists_file_of_plan valid planned given with ⟨file, known, same⟩
    rcases Plan.exists_fileOf valid planned known with ⟨record, h⟩
    rcases valid label.label given with ⟨other, held, _⟩
    have again := h.held.of_same held.isSome_whole? same
    rw [again.recordAt_eq, FileRecord.isSingle, decide_eq_true_eq] at single
    have inFile : label.label ∈ entry.diagnostic.labelsIn file.id :=
      List.mem_filter.mpr ⟨given, same⟩
    have shown := (h.mem_index_renderedLines (record.lineAt label.label.start)).mpr
      ⟨label.label, inFile, Or.inl rfl⟩
    rcases List.mem_map.mp shown with ⟨line, member, index⟩
    refine ⟨file, known, line, member, (hasUndrawableMark_iff valid h line.index).mpr ?_⟩
    exact ⟨label, listed, same, noText, noBlank, index.symm, single ▸ index.symm⟩

/-- The rejection of the first label that is not valid. -/
def rejection? (base : FileBase) (entry : Entry) : Option SourceReport.Failure :=
  entry.diagnostic.labels.findSome? fun label => label.rejection? base

/-- A rejection of a label with short ends is told, if the file has short numbers too. -/
theorem isWritable_of_rejection? (short : base.HasShortNumbers) {label : Label}
    {record : FileRecord} (held : base.Holds label.file record) (ends : HasShortEnds label)
    {failure : SourceReport.Failure} (rejected : label.rejection? base = some failure) :
    failure.isWritable = true := by
  rw [Label.rejection?, FileBase.get_eq_ok_iff.mpr held] at rejected
  simp only at rejected
  split at rejected
  · cases rejected
    have length : Digits.isWritable (record.encoded.length - 1 : Nat) = true :=
      short.isWritable held (by omega) (by omega)
    simp [Failure.isWritable, Failure.numbers, ends.2, length]
  · split at rejected
    · cases rejected
      simp [Failure.isWritable, Failure.numbers, ends.1]
    · split at rejected
      · cases rejected
        simp [Failure.isWritable, Failure.numbers, ends.2]
      · cases rejected

/-- Where all numbers are short, an entry is stopped by its first rejection or not at all. -/
theorem stop?_eq (options : Options) (short : base.HasShortNumbers)
    (known : ∀ label ∈ entry.diagnostic.labels, ∃ record, base.Holds label.file record)
    (ends : ∀ label ∈ entry.diagnostic.labels, HasShortEnds label) :
    View.stop? base 1 options entry.diagnostic = (entry.rejection? base).map .failure := by
  rw [View.stop?_of_counted options fun _ _ valid => short.isCounted valid, rejection?]
  cases reason : entry.diagnostic.labels.findSome? fun label => label.rejection? base with
  | none => rfl
  | some failure =>
      rcases List.exists_of_findSome?_eq_some reason with ⟨label, listed, rejected⟩
      rcases known label listed with ⟨record, held⟩
      have written := isWritable_of_rejection? short held (ends label listed) rejected
      rw [Option.map_some, Failure.raised_of_isWritable written]
      rfl

theorem not_isUnworded (short : base.HasShortNumbers)
    (known : ∀ label ∈ entry.diagnostic.labels, ∃ record, base.Holds label.file record)
    (ends : ∀ label ∈ entry.diagnostic.labels, HasShortEnds label) :
    ¬ entry.IsUnworded base options := by
  rintro ⟨_, fault, stopped⟩
  rw [stop?_eq options short known ends] at stopped
  rcases Option.map_eq_some_iff.mp stopped with ⟨failure, _, same⟩
  cases same

theorem halts_iff (valid : entry.IsValid base) :
    entry.Halts base.lookup options ↔
      (options.displayStyle = .rich ∧ ∃ label ∈ entry.labels, label.IsUndrawable base) ∨
        options.displayStyle ≠ .short ∧ ∃ note ∈ entry.notes, note.isText = false := by
  refine or_congr ?_ Iff.rfl
  obtain ⟨plan, planned⟩ : ∃ plan,
      Plan.ofDiagnostic (base.numberedFrom 1) options entry.diagnostic = .ok plan :=
    ⟨_, Plan.ofDiagnostic_eq valid⟩
  have files : (∃ file ∈ plan.files, entry.HasUndrawableFile base.lookup file) ↔
      ∃ file ∈ plan.files, ∃ line ∈ file.renderedLines,
        hasUndrawableMark base.lookup file entry line.index = true := by
    refine exists_congr fun file => and_congr_right fun known => ?_
    rcases Plan.exists_fileOf valid planned known with ⟨record, h⟩
    exact and_iff_right ⟨record.encoded, h.held.encoded_eq⟩
  rw [FileBase.numberedFrom_one] at planned
  rw [exists_hasUndrawableMark_iff valid planned] at files
  constructor
  · rintro ⟨other, rich, again, undrawable⟩
    rw [planned] at again
    cases again
    exact ⟨rich, files.mp undrawable⟩
  · rintro ⟨rich, undrawable⟩
    exact ⟨plan, rich, planned, files.mpr undrawable⟩

theorem checkLabels_eq (base : FileBase) (labels : List Label) :
    View.Short.checkLabels base.lookup labels =
      match labels.findSome? fun label => label.rejection? base with
      | some failure => .error failure
      | none => .ok () := by
  rw [← FileBase.numberedFrom_one]
  exact View.checkLabels_eq labels

theorem stretches_of_rejection? (options : Options) (kind : EmitterKind)
    (numbers : ∀ label ∈ entry.diagnostic.labels, label.file.whole?.isSome = true)
    {failure : SourceReport.Failure}
    (rejected : entry.diagnostic.labels.findSome? (fun label => label.rejection? base) =
      some failure) : entry.stretches base.lookup options kind = .error failure := by
  have plan : Plan.ofDiagnostic (base.numberedFrom 1) options entry.diagnostic = .error failure :=
    Plan.ofDiagnostic_of_rejection? numbers rejected
  rw [FileBase.numberedFrom_one] at plan
  rw [stretches]
  cases options.displayStyle with
  | rich => rw [plan, Except.map]
  | medium => simp only [checkLabels_eq, rejected, Except.map]
  | short => simp only [checkLabels_eq, rejected, Except.map]

end Entry
end Document

namespace Overflow

variable {machine : Machine} {pencil : Pencil} {report : Report}

/-- Drawing changes no sink that accepts everything into another one. -/
theorem accepts_perform (machine : Machine) (pencil : Pencil) (h : report.emitter.Accepts)
    (steps : List Step) : (perform machine pencil report steps).report.emitter.Accepts := by
  induction steps generalizing report with
  | nil => exact h
  | cons step rest ih =>
      cases step with
      | trace trace =>
          have next : { report with traces := report.traces ++ [trace] }.emitter.Accepts := h
          exact ih next
      | fail failure =>
          rw [perform]
          cases failure.raised with
          | failure failure => exact h
          | fault fault => exact h
      | row padding row =>
          have accepts := (Emitter.run_of_accepts h (rowEvents machine pencil padding row)).2
          rw [perform]
          cases drawn : report.emitter.run (rowEvents machine pencil padding row) with
          | mk emitter failure =>
              rw [drawn] at accepts
              cases failure with
              | some failure => exact accepts
              | none =>
                  simp only
                  split
                  · exact accepts
                  · have next : ({ report with emitter } : Report).emitter.Accepts := accepts
                    exact ih next

end Overflow

/-- Failures that lookups, positions and sinks are meant to end with. -/
def Failure.isReported : Failure → Bool
  | .fileMissing _ => true
  | .indexTooLarge _ _ => true
  | .lineTooLarge _ _ => true
  | .columnTooLarge _ _ => true
  | .invalidCharBoundary _ => true
  | .format _ => true
  | .lineBeforeFirst _ => false
  | .undecodable => false

theorem Label.isReported_of_rejection? {base : FileBase} {label : Label} {failure : Failure}
    (rejected : label.rejection? base = some failure) : failure.isReported = true := by
  rw [rejection?] at rejected
  split at rejected
  · cases rejected
    rfl
  · split at rejected
    · cases rejected
      rfl
    · split at rejected
      · cases rejected
        rfl
      · split at rejected
        · cases rejected
          rfl
        · cases rejected

namespace Document

/-!
# Drawing one entry
-/

section Entries

variable {machine : Machine} {base : FileBase} {options : Options} {kind : EmitterKind}
  {report : Report} {entry : Entry} {entries : List Entry}

theorem addStretches_of_accepts (going : report.failure = none) (h : report.emitter.Accepts)
    {stretches : List Stretch} (unfailing : ∀ failure, .step (.fail failure) ∉ stretches) :
    let drawing := addStretches machine options kind report entry stretches
    drawing.report.failure = none ∧ drawing.report.emitter.Accepts ∧
      drawing.fault = stretches.findSome? (Stretch.fault?
        (Overflow.ofStep? machine (Report.pencil options kind.theme entry.diagnostic))) := by
  intro drawing
  have steps : ∀ failure, Step.fail failure ∉ (Stretch.upToHalt stretches).1 :=
    fun failure member => unfailing failure (Stretch.mem_of_mem_upToHalt member)
  have drawn := Overflow.perform_of_accepts machine
    (Report.pencil options kind.theme entry.diagnostic) going h steps
  have accepts := Overflow.accepts_perform machine
    (Report.pencil options kind.theme entry.diagnostic) h (Stretch.upToHalt stretches).1
  rw [Stretch.findSome?_fault?_eq, ← drawn.2]
  simp only [drawing, addStretches, Overflow.Drawing.isComplete, drawn.1, Option.isNone_none,
    Bool.true_and]
  cases fault : (Overflow.perform machine (Report.pencil options kind.theme entry.diagnostic)
      report (Stretch.upToHalt stretches).1).fault with
  | some found => exact ⟨drawn.1, accepts, fault⟩
  | none =>
      simp only [Option.isNone_none, if_true]
      cases (Stretch.upToHalt stretches).2 with
      | some halt => exact ⟨drawn.1, accepts, rfl⟩
      | none => exact ⟨rfl, accepts, rfl⟩

/-- An entry that is stopped before it is drawn leaves everything as it was. -/
theorem addEntry_of_stop? (machine : Machine) (kind : EmitterKind) (report : Report)
    (numbers : ∀ label ∈ entry.diagnostic.labels, label.file.whole?.isSome = true)
    {raised : Raised} (stopped : View.stop? base 1 options entry.diagnostic = some raised) :
    addEntry machine base.lookup options kind report entry = .ofRaised report raised := by
  by_cases rich : options.displayStyle = .rich
  · rw [View.stop?_of_rich rich] at stopped
    have planned := Overflow.ofPlan?_eq base 1 numbers rich
    rw [stopped, FileBase.numberedFrom_one] at planned
    cases raised with
    | fault fault =>
        rw [addEntry, planned]
        rfl
    | failure failure =>
        rcases View.findSome?_rejection?_of_raised? stopped with ⟨rejected, worded⟩
        rw [addEntry, planned, Entry.stretches_of_rejection? options kind numbers rejected]
        exact congrArg (Overflow.Drawing.ofRaised report) worded
  · rw [View.stop?_of_not_rich rich] at stopped
    rcases Option.map_eq_some_iff.mp stopped with ⟨failure, rejected, rfl⟩
    rw [addEntry, Overflow.ofPlan?_of_not_rich rich,
      Entry.stretches_of_rejection? options kind numbers rejected]

/-- Any other entry is drawn, up to a step with a fault or to something that is no text. -/
theorem addEntry_of_going (machine : Machine) (kind : EmitterKind)
    (stopless : View.stop? base 1 options entry.diagnostic = none)
    (going : report.failure = none) (h : report.emitter.Accepts) :
    let drawing := addEntry machine base.lookup options kind report entry
    drawing.report.failure = none ∧ drawing.report.emitter.Accepts ∧
      (drawing.fault.isSome = true ↔ entry.Stops machine base options kind) := by
  intro drawing
  have valid : entry.IsValid base := Overflow.valid_of_stop? stopless
  have planned := Overflow.ofPlan?_of_stop? stopless
  rw [FileBase.numberedFrom_one] at planned
  have unfailing : ∀ failure,
      Step.fail failure ∉ View.steps (base.numberedFrom 1) options entry.diagnostic :=
    View.fail_not_mem_steps valid
  rw [FileBase.numberedFrom_one] at unfailing
  have counted : ¬ (options.displayStyle = .rich ∧
      ∃ label ∈ entry.diagnostic.labels, label.isCounted base 1 = false) := by
    intro uncounted
    have stopped := View.isSome_stop?_iff.mpr (Or.inr uncounted)
    rw [stopless] at stopped
    cases stopped
  rcases entry.covers_stretches base.lookup options kind with
    ⟨failure, _, steps⟩ | ⟨stretches, drawn, covers⟩
  · exact absurd (steps ▸ List.mem_singleton_self _) (unfailing failure)
  · have shown : drawing = addStretches machine options kind report entry stretches := by
      simp only [drawing, addEntry, planned, drawn]
    have ends := @addStretches_of_accepts machine options kind report entry going h stretches
      fun failure member => unfailing failure (covers.mem_steps _ member)
    rw [← shown] at ends
    refine ⟨ends.1, ends.2.1, ?_⟩
    rw [ends.2.2, covers.isSome_findSome?_iff, Entry.halts_iff valid]
    constructor
    · rintro
        (⟨step, member, fails⟩ | ⟨rich, label, listed, undrawable⟩ | ⟨long, note, listed, noText⟩)
      · exact .row member fails
      · exact .mark rich listed undrawable
      · exact .note long listed noText
    · rintro (⟨rich, listed, undrawable⟩ | ⟨long, listed, noText⟩ | ⟨rich, listed, uncounted⟩ |
        ⟨member, fails⟩)
      · exact Or.inr (Or.inl ⟨rich, _, listed, undrawable⟩)
      · exact Or.inr (Or.inr ⟨long, _, listed, noText⟩)
      · exact absurd ⟨rich, _, listed, uncounted⟩ counted
      · exact Or.inl ⟨_, member, fails⟩

/-!
# The entries of a document
-/

theorem addEntries_cons_of_incomplete {lookup : Lookup} (rest : List Entry)
    (incomplete : (addEntry machine lookup options kind report entry).isComplete = false) :
    addEntries machine lookup options kind report (entry :: rest) =
      addEntry machine lookup options kind report entry := by
  simp only [addEntries, incomplete, Bool.false_eq_true, if_false]

theorem addEntries_cons_of_complete {lookup : Lookup} (rest : List Entry)
    (complete : (addEntry machine lookup options kind report entry).isComplete = true) :
    addEntries machine lookup options kind report (entry :: rest) =
      addEntries machine lookup options kind
        (addEntry machine lookup options kind report entry).report rest := by
  simp only [addEntries, complete, if_true]

theorem addEntries_of_stop? (machine : Machine) (kind : EmitterKind) (report : Report)
    (numbers : ∀ label ∈ entry.diagnostic.labels, label.file.whole?.isSome = true)
    {raised : Raised} (stopped : View.stop? base 1 options entry.diagnostic = some raised)
    (rest : List Entry) :
    addEntries machine base.lookup options kind report (entry :: rest) =
      .ofRaised report raised := by
  have drawn := addEntry_of_stop? machine kind report numbers stopped
  have incomplete : (addEntry machine base.lookup options kind report entry).isComplete = false := by
    rw [drawn, Overflow.Drawing.isComplete_ofRaised]
  rw [addEntries_cons_of_incomplete rest incomplete, drawn]

/-- A fault before an entry is drawn comes of the number of a line, or of a label that is refused. -/
theorem Entry.stops_or_isUnworded (machine : Machine) (kind : EmitterKind) {fault : Fault}
    (stopped : View.stop? base 1 options entry.diagnostic = some (.fault fault)) :
    entry.IsValid base ∧ entry.Stops machine base options kind ∨
      entry.IsUnworded base options := by
  by_cases valid : entry.IsValid base
  · have reason := View.isSome_stop?_iff.mp (Option.isSome_of_eq_some stopped)
    rcases reason with ⟨label, listed, invalid⟩ | ⟨rich, label, listed, uncounted⟩
    · exact absurd (valid label listed) invalid
    · exact Or.inl ⟨valid, .count rich listed uncounted⟩
  · exact Or.inr ⟨valid, fault, stopped⟩

/-- A failure before an entry is drawn comes of a label that is refused. -/
theorem Entry.not_isValid_of_failure {failure : SourceReport.Failure}
    (stopped : View.stop? base 1 options entry.diagnostic = some (.failure failure)) :
    (¬ entry.IsValid base ∧ ¬ entry.IsUnworded base options) ∧ failure.isReported = true := by
  have rejected : entry.diagnostic.labels.findSome? (fun label => label.rejection? base) =
      some failure := View.rejection?_of_stop? stopped
  rcases List.exists_of_findSome?_eq_some rejected with ⟨label, listed, refused⟩
  refine ⟨⟨?_, ?_⟩, Label.isReported_of_rejection? refused⟩
  · intro valid
    rw [Label.rejection?_eq_none_iff.mpr (valid label listed)] at refused
    cases refused
  · rintro ⟨_, fault, other⟩
    cases stopped.symm.trans other

/-- An entry is drawn and the others follow, or it stops the drawing, or it is refused. -/
theorem addEntries_cons_cases (machine : Machine) (base : FileBase) (options : Options)
    (kind : EmitterKind)
    (numbers : ∀ label ∈ entry.diagnostic.labels, label.file.whole?.isSome = true)
    (going : report.failure = none) (accepts : report.emitter.Accepts) (rest : List Entry) :
    let drawing := addEntries machine base.lookup options kind report (entry :: rest)
    (entry.IsDrawn machine base options kind ∧ ∃ next : Report, next.failure = none ∧
      next.emitter.Accepts ∧
      drawing = addEntries machine base.lookup options kind next rest) ∨
    ((entry.IsValid base ∧ entry.Stops machine base options kind ∨
        entry.IsUnworded base options) ∧
      drawing.fault.isSome = true ∧ drawing.report.failure = none) ∨
    ((¬ entry.IsValid base ∧ ¬ entry.IsUnworded base options) ∧
      ∃ failure : SourceReport.Failure, failure.isReported = true ∧
        drawing.fault = none ∧ drawing.report.failure = some failure) := by
  intro drawing
  cases stopped : View.stop? base 1 options entry.diagnostic with
  | none =>
      have valid : entry.IsValid base := Overflow.valid_of_stop? stopped
      rcases addEntry_of_going machine kind stopped going accepts with ⟨unfailed, accepting, stops⟩
      cases fault : (addEntry machine base.lookup options kind report entry).fault with
      | none =>
          have complete : (addEntry machine base.lookup options kind report entry).isComplete =
              true := by
            rw [Overflow.Drawing.isComplete, unfailed, fault]
            rfl
          rw [fault] at stops
          exact Or.inl ⟨⟨valid, fun stopped => absurd (stops.mpr stopped) Bool.false_ne_true⟩, _,
            unfailed, accepting, addEntries_cons_of_complete rest complete⟩
      | some found =>
          have incomplete : (addEntry machine base.lookup options kind report entry).isComplete =
              false := by
            rw [Overflow.Drawing.isComplete, fault]
            exact Bool.and_false _
          rw [fault] at stops
          have ends : drawing = addEntry machine base.lookup options kind report entry :=
            addEntries_cons_of_incomplete rest incomplete
          rw [ends]
          exact Or.inr (Or.inl ⟨Or.inl ⟨valid, stops.mp rfl⟩, by rw [fault]; rfl, unfailed⟩)
  | some raised =>
      have ends : drawing = .ofRaised report raised :=
        addEntries_of_stop? machine kind report numbers stopped rest
      rw [ends]
      cases raised with
      | fault fault =>
          exact Or.inr (Or.inl ⟨Entry.stops_or_isUnworded machine kind stopped, rfl, going⟩)
      | failure failure =>
          rcases Entry.not_isValid_of_failure stopped with ⟨refused, reported⟩
          exact Or.inr (Or.inr ⟨refused, failure, reported, rfl, rfl⟩)

/-- Entries are drawn up to the first one that stops the drawing or is refused. -/
theorem addEntries_outcome (machine : Machine) (kind : EmitterKind) (numbers : HasNumbers entries)
    (going : report.failure = none) (accepts : report.emitter.Accepts) :
    let drawing := addEntries machine base.lookup options kind report entries
    (drawing.fault.isSome = true ↔ Reaches (Entry.IsDrawn machine base options kind)
      (fun entry => entry.IsValid base ∧ entry.Stops machine base options kind ∨
        entry.IsUnworded base options) entries) ∧
    (drawing.report.failure.isSome = true ↔ Reaches (Entry.IsDrawn machine base options kind)
      (fun entry => ¬ entry.IsValid base ∧ ¬ entry.IsUnworded base options) entries) ∧
    ∀ failure, drawing.report.failure = some failure → failure.isReported = true := by
  induction entries generalizing report with
  | nil =>
      simp only [addEntries, going, Option.isSome_none, Bool.false_eq_true, Reaches.not_nil,
        reduceCtorEq, false_implies, implies_true, and_self]
  | cons entry rest ih =>
      rw [HasNumbers, List.forall_mem_cons] at numbers
      intro drawing
      rw [Reaches.cons_iff, Reaches.cons_iff]
      rcases addEntries_cons_cases machine base options kind numbers.1 going accepts rest with
        ⟨drawn, next, going, accepts, follows⟩ | ⟨stopped, fault, failure⟩ |
          ⟨refused, failure, reported, fault, failed⟩
      · have others := ih numbers.2 going accepts
        rw [← follows] at others
        have intact : ¬ (entry.IsValid base ∧ entry.Stops machine base options kind ∨
            entry.IsUnworded base options) := by
          rintro (stopped | unworded)
          · exact drawn.2 stopped.2
          · exact unworded.1 drawn.1
        have valid : ¬ (¬ entry.IsValid base ∧ ¬ entry.IsUnworded base options) :=
          fun invalid => invalid.1 drawn.1
        simp only [intact, valid, drawn, true_and, false_or]
        exact others
      · have undrawn : ¬ entry.IsDrawn machine base options kind := by
          rintro ⟨valid, unstopped⟩
          rcases stopped with stopped | unworded
          · exact unstopped stopped.2
          · exact unworded.1 valid
        have known : ¬ (¬ entry.IsValid base ∧ ¬ entry.IsUnworded base options) := by
          rintro ⟨invalid, worded⟩
          exact stopped.elim (fun stopped => invalid stopped.1) worded
        simp only [drawing, fault, failure, stopped, known, undrawn, Option.isSome_none,
          Bool.false_eq_true, false_and, or_self, or_false, reduceCtorEq, false_implies,
          implies_true, and_self]
      · have undrawn : ¬ entry.IsDrawn machine base options kind := fun drawn => refused.1 drawn.1
        simp only [drawing, fault, failed, refused, undrawn, reported, Option.isSome_none,
          Option.isSome_some, Bool.false_eq_true, false_and, or_self, or_false, not_false_eq_true,
          and_self, Option.some.injEq, forall_eq']

end Entries

/-!
# Letters in a document

The letters are read from a file. The first diagnostic about them is drawn, and the second one has a
note that is a number.
-/

namespace Letters

def tree : FileTree where
  root := ""
  cwd := []
  files := [([.whole "letters.txt"], Utf8.encode "a\nb\n".toList)]
  directories := []

def path : Path :=
  .ofText (.whole "letters.json")

def label : Value :=
  .table [(.whole "file", .text "letters"), (.whole "start", .int 0), (.whole "end", .int 1)]

def value : Value :=
  .table [
    (.whole "files",
      .list [.table [(.whole "name", .text "letters"), (.whole "path", .text "letters.txt")]]),
    (.whole "diagnostics",
      .list [
        .table [(.whole "labels", .list [label])],
        .table [(.whole "notes", .list [.int 3])]])]

theorem readsFiles : ReadsFiles tree path value := by
  rintro _ _ ⟨⟩ ⟨⟩ item member
  cases member with
  | head =>
      rintro asked ⟨⟩
      exact ⟨_, rfl⟩
  | tail _ member => cases member

end Letters

/-!
# Documents
-/

/-- The labels of a loaded document are about its files. -/
theorem holds_of_ofValue {tree : FileTree} {path : Path} {value : Value} {document : Document}
    (loaded : (ofValue tree path value).2 = .ok document) :
    ∀ entry ∈ document.entries, ∀ label ∈ entry.diagnostic.labels,
      ∃ record, document.base.Holds label.file record := by
  intro entry listed label member
  rcases file_of_ofValue loaded entry listed label member with ⟨id, known, same⟩
  have inside : id < document.base.records.length := by
    rw [base, FileBase.records_ofSources, List.length_map, List.length_map]
    exact known
  refine ⟨document.base.records[id], id, ?_, List.getElem?_eq_getElem inside⟩
  rw [same]
  rfl

theorem holds_of_load {tree : FileTree} {path : Path} {document : Document}
    (loaded : (load tree path).2 = .ok document) :
    ∀ entry ∈ document.entries, ∀ label ∈ entry.diagnostic.labels,
      ∃ record, document.base.Holds label.file record := by
  rcases exists_ofValue_of_load loaded with ⟨value, _, given⟩
  exact holds_of_ofValue given

/-- A document ends in a fault, when it is loaded or when it is drawn, exactly if the first part that
is wrong is one that is not checked. -/
theorem document_faults_exact (machine : Machine) (tree : FileTree) (path : Path) (value : Value)
    (reads : ReadsFiles tree path value) :
    ((∃ found, (ofValue tree path value).2 = fault found) ↔ Crashes value) ∧
      ∀ document, (ofValue tree path value).2 = .ok document → ∀ options kind,
        let drawing := document.reportEntries options kind machine
        (drawing.fault.isSome = true ↔
          Reaches (Entry.IsDrawn machine document.base options kind)
            (fun entry => entry.IsValid document.base ∧
                entry.Stops machine document.base options kind ∨
              entry.IsUnworded document.base options)
            document.entries) ∧
        (drawing.report.failure.isSome = true ↔
          Reaches (Entry.IsDrawn machine document.base options kind)
            (fun entry => ¬ entry.IsValid document.base ∧
              ¬ entry.IsUnworded document.base options) document.entries) ∧
        (∀ failure, drawing.report.failure = some failure → failure.isReported = true) ∧
        (value.IsShort → document.base.HasShortNumbers →
          ∀ entry ∈ document.entries, ¬ entry.IsUnworded document.base options) := by
  refine ⟨exists_ofValue_eq_fault_iff reads, ?_⟩
  intro document loaded options kind
  have accepts : ({ kind } : Emitter).Accepts := fun _ _ _ => rfl
  have outcome := @addEntries_outcome document.base options { emitter := { kind } }
    document.entries machine kind (hasNumbers_of_ofValue loaded) rfl accepts
  refine ⟨outcome.1, outcome.2.1, outcome.2.2, ?_⟩
  intro short files entry listed
  exact Entry.not_isUnworded files (holds_of_ofValue loaded entry listed)
    (hasShortEnds_of_ofValue short loaded entry listed)

/-- A diagnostic that is a number ends in a fault, although such a label is reported. -/
theorem number_for_diagnostic_crashes :
    (ofValue Letters.tree Letters.path
        (.table [(.whole "files", .list []), (.whole "diagnostics", .list [.int 3])])).2 =
      fault .unsupported ∧
    (ofValue Letters.tree Letters.path
        (.table [(.whole "files", .list []), (.whole "diagnostics",
          .list [.table [(.whole "labels", .list [.int 3])]])])).2 =
      report (.badDiagnostic 0 (.noFields "int")) :=
  ⟨rfl, rfl⟩

theorem document_faults_exact_letters :
    ReadsFiles Letters.tree Letters.path Letters.value ∧ ¬ Crashes Letters.value ∧
      ∃ document, (ofValue Letters.tree Letters.path Letters.value).2 = .ok document ∧
        Reaches (Entry.IsDrawn {} document.base {} .plain)
          (fun entry => entry.IsValid document.base ∧ entry.Stops {} document.base {} .plain ∨
            entry.IsUnworded document.base {})
          document.entries := by
  have exact := document_faults_exact {} Letters.tree Letters.path Letters.value Letters.readsFiles
  obtain ⟨document, loaded, stopped⟩ : ∃ document,
      (ofValue Letters.tree Letters.path Letters.value).2 = .ok document ∧
        (document.reportEntries {} .plain).fault.isSome = true :=
    ⟨_, rfl, by decide +kernel⟩
  refine ⟨Letters.readsFiles, ?_, document, loaded,
    (exact.2 document loaded {} .plain).1.mp stopped⟩
  intro crash
  rcases exact.1.mpr crash with ⟨found, failed⟩
  cases loaded.symm.trans failed

end Document
end SourceReport
