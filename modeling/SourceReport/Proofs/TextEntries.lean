import SourceReport.Proofs.DrawingFaults
import SourceReport.Proofs.Independence

/-!
# Entries of texts

The messages of labels and the notes of an entry are meant to be texts. Entries of texts are drawn
as the diagnostics that they stand for, one after another: only a label that is not valid or a piece
that cannot be made ends the drawing.
-/

namespace SourceReport
namespace Overflow

/-!
# How the drawing of a diagnostic ends
-/

/-- What is raised when a diagnostic is drawn: for a label or a number before anything is drawn, or
at the first step with a fault. -/
def ending? (machine : Machine) (base : FileBase) (options : Options) (theme : Theme)
    (diagnostic : Diagnostic) : Option Raised :=
  (View.stop? base 1 options diagnostic).or
    (((View.steps base.lookup options diagnostic).findSome?
      (ofStep? machine (Report.pencil options theme diagnostic))).map .fault)

variable {machine : Machine} {base : FileBase} {options : Options} {theme : Theme}
  {diagnostic : Diagnostic}

theorem Course.ends_ofDiagnostic
    (numbers : ∀ label ∈ diagnostic.labels, label.file.whole?.isSome = true) :
    (ofDiagnostic machine base.lookup options theme diagnostic).failure =
        (ending? machine base options theme diagnostic).bind Raised.failure? ∧
      (ofDiagnostic machine base.lookup options theme diagnostic).fault =
        (ending? machine base options theme diagnostic).bind Raised.fault? := by
  let report : Report := { emitter := { kind := .plain } }
  have accepts : report.emitter.Accepts := fun _ _ _ => rfl
  have drawn := @runs_add base.lookup options theme report machine rfl accepts diagnostic
  rw [← drawn.failure_eq, ← drawn.fault_eq, ← FileBase.numberedFrom_one, ending?]
  cases stopped : View.stop? base 1 options diagnostic with
  | some raised =>
      rw [add_of_stop? numbers stopped]
      cases raised with
      | failure failure => exact ⟨rfl, rfl⟩
      | fault fault => exact ⟨rfl, rfl⟩
  | none =>
      have ends := @add_of_going machine base 1 options theme report diagnostic stopped rfl accepts
      rw [ends.1, ends.2, Option.none_or, ← FileBase.numberedFrom_one]
      cases (View.steps (base.numberedFrom 1) options diagnostic).findSome?
          (ofStep? machine (Report.pencil options theme diagnostic)) with
      | none => exact ⟨rfl, rfl⟩
      | some fault => exact ⟨rfl, rfl⟩

/-- A diagnostic is drawn completely if and only if nothing is raised. -/
theorem Course.isComplete_ofDiagnostic_iff
    (numbers : ∀ label ∈ diagnostic.labels, label.file.whole?.isSome = true) :
    (ofDiagnostic machine base.lookup options theme diagnostic).isComplete = true ↔
      ending? machine base options theme diagnostic = none := by
  rw [isComplete_iff, (ends_ofDiagnostic numbers).1, (ends_ofDiagnostic numbers).2]
  cases ending? machine base options theme diagnostic with
  | none => simp
  | some raised => cases raised <;> simp [Raised.failure?, Raised.fault?]

theorem rejection?_of_ending? {failure : Failure}
    (ends : ending? machine base options theme diagnostic = some (.failure failure)) :
    (diagnostic.labels.findSome? fun label => label.rejection? base) = some failure := by
  rw [ending?] at ends
  rcases Option.or_eq_some_iff.mp ends with stopped | ⟨_, later⟩
  · exact View.rejection?_of_stop? stopped
  · rcases Option.map_eq_some_iff.mp later with ⟨fault, _, same⟩
    cases same

/-- Where all numbers are short, a drawing is ended by a rejection or by a text that is too long. -/
theorem ending?_of_short (short : base.HasShortNumbers)
    (stops : View.stop? base 1 options diagnostic =
      (diagnostic.labels.findSome? fun label => label.rejection? base).map .failure) :
    (∀ failure, ending? machine base options theme diagnostic = some (.failure failure) ↔
      (diagnostic.labels.findSome? fun label => label.rejection? base) = some failure) ∧
    ∀ fault, ending? machine base options theme diagnostic = some (.fault fault) →
      (∀ label ∈ diagnostic.labels, label.IsValid base) ∧ IsOverflow fault := by
  constructor
  · intro failure
    refine ⟨rejection?_of_ending?, fun rejected => ?_⟩
    rw [ending?, stops, rejected]
    rfl
  · intro fault ends
    rw [ending?] at ends
    rcases Option.or_eq_some_iff.mp ends with stopped | ⟨going, later⟩
    · rw [stops] at stopped
      rcases Option.map_eq_some_iff.mp stopped with ⟨failure, _, same⟩
      cases same
    · rcases Option.map_eq_some_iff.mp later with ⟨found, fails, same⟩
      cases same
      have valid := valid_of_stop? going
      exact ⟨valid, (isOverflow_or_longNumber valid fails).resolve_right fun long => long.2 short⟩

theorem valid_of_ending? (going : ending? machine base options theme diagnostic = none) :
    ∀ label ∈ diagnostic.labels, label.IsValid base := by
  rw [ending?, Option.or_eq_none_iff] at going
  exact valid_of_stop? going.1

end Overflow

namespace Document
namespace Entry

variable {machine : Machine} {lookup : Lookup} {options : Options} {kind : EmitterKind}
  {entry : Entry}

def HasTexts (entry : Entry) : Prop :=
  (∀ label ∈ entry.labels, label.message.isText = true) ∧ ∀ note ∈ entry.notes, note.isText = true

instance (entry : Entry) : Decidable entry.HasTexts :=
  inferInstanceAs (Decidable (_ ∧ _))

/-- How the drawing of an entry of texts ends, if not with its last row. -/
def ending? (machine : Machine) (base : FileBase) (options : Options) (kind : EmitterKind)
    (entry : Entry) : Option Raised :=
  Overflow.ending? machine base options kind.theme entry.diagnostic

/-- The labels are valid, and every piece can be made. -/
def Fits (machine : Machine) (base : FileBase) (options : Options) (kind : EmitterKind)
    (entry : Entry) : Prop :=
  entry.ending? machine base options kind = none

instance (machine : Machine) (base : FileBase) (options : Options) (kind : EmitterKind)
    (entry : Entry) : Decidable (entry.Fits machine base options kind) :=
  inferInstanceAs (Decidable (_ = _))

/-!
# Entries as diagnostics
-/

theorem not_halts (texts : entry.HasTexts) : ¬ entry.Halts lookup options := by
  rintro (⟨_, _, _, file, _, _, line, _, holds⟩ | ⟨_, note, listed, noText⟩)
  · rw [hasUndrawableMark, List.any_eq_true] at holds
    rcases holds with ⟨label, listed, here⟩
    rw [isUndrawable, texts.1 label listed] at here
    simp at here
  · rw [texts.2 note listed] at noText
    cases noText

/-- An entry of texts is drawn as its diagnostic. -/
theorem addEntry_eq_add (texts : entry.HasTexts) (report : Report) :
    addEntry machine lookup options kind report entry =
      Overflow.add lookup options kind.theme report entry.diagnostic machine := by
  cases planned : Overflow.ofPlan? lookup options entry.diagnostic with
  | some fault => rw [addEntry, Overflow.add, planned]
  | none =>
      rcases entry.covers_stretches lookup options kind with
        ⟨failure, refused, steps⟩ | ⟨stretches, drawn, covers⟩
      · rw [Overflow.add_of_fail planned steps, addEntry, planned, refused]
      · rw [addEntry, Overflow.add, planned, drawn]
        simp only [addStretches, covers.eq_of_whole (not_halts texts), Stretch.upToHalt_map_step]

end Entry

/-!
# Entries one after another
-/

section Entries

variable {machine : Machine} {base : FileBase} {lookup : Lookup} {options : Options}
  {kind : EmitterKind} {entries : List Entry}

/-- All entries fit, or there is a first one that ends the drawing. -/
theorem forall_fits_or_reaches (machine : Machine) (base : FileBase) (options : Options)
    (kind : EmitterKind) (entries : List Entry) :
    (∀ entry ∈ entries, entry.Fits machine base options kind) ∨
      ∃ raised, Reaches (Entry.Fits machine base options kind)
        (fun entry => entry.ending? machine base options kind = some raised) entries := by
  induction entries with
  | nil => exact Or.inl (List.forall_mem_nil _)
  | cons entry rest ih =>
      cases ends : entry.ending? machine base options kind with
      | some raised => exact Or.inr ⟨raised, .here ends⟩
      | none =>
          rcases ih with others | ⟨raised, reached⟩
          · exact Or.inl (List.forall_mem_cons.mpr ⟨ends, others⟩)
          · exact Or.inr ⟨raised, .next ends reached⟩

theorem addEntries_eq_addAll (texts : ∀ entry ∈ entries, entry.HasTexts) {report : Report}
    (going : report.failure = none) :
    let drawn := Overflow.addAll lookup options kind.theme report
      (entries.map Entry.diagnostic) machine
    addEntries machine lookup options kind report entries =
      if drawn.isComplete then
        { report :=
            { drawn.report with traces := drawn.report.traces ++ [.emitted drawn.report.count] } }
      else drawn := by
  induction entries generalizing report with
  | nil =>
      have complete : ({ report } : Overflow.Drawing).isComplete = true := by
        rw [Overflow.Drawing.isComplete, going]
        rfl
      simp only [addEntries, List.map_nil, Overflow.addAll, complete, if_true]
  | cons entry rest ih =>
      rw [List.forall_mem_cons] at texts
      simp only [addEntries, List.map_cons, Overflow.addAll, Entry.addEntry_eq_add texts.1]
      split
      · rename_i complete
        rw [Overflow.Drawing.isComplete, Bool.and_eq_true] at complete
        exact ih texts.2 (Option.isNone_iff_eq_none.mp complete.1)
      · rfl

/-- The entries of texts are reported as their diagnostics. -/
theorem reportEntries_eq_emitAll {document : Document}
    (texts : ∀ entry ∈ document.entries, entry.HasTexts) :
    document.reportEntries options kind machine =
      Overflow.emitAll document.base.lookup options kind.theme { kind }
        (document.entries.map Entry.diagnostic) machine :=
  addEntries_eq_addAll texts rfl

/-- What ends the drawing of the first entry that does not fit ends the whole drawing. -/
theorem ends_of_reaches (numbers : HasNumbers entries) {raised : Raised}
    (reached : Reaches (Entry.Fits machine base options kind)
      (fun entry => entry.ending? machine base options kind = some raised) entries) :
    let course := Overflow.Course.ofDiagnostics machine base.lookup options kind.theme
      (entries.map Entry.diagnostic)
    course.failure = raised.failure? ∧ course.fault = raised.fault? := by
  induction reached with
  | @here entry rest ends =>
      rw [HasNumbers, List.forall_mem_cons] at numbers
      have course := @Overflow.Course.ends_ofDiagnostic machine base options kind.theme
        entry.diagnostic numbers.1
      have incomplete := mt (@Overflow.Course.isComplete_ofDiagnostic_iff machine base options
        kind.theme entry.diagnostic numbers.1).mp
          (by rw [← Entry.ending?, ends]; exact Option.some_ne_none raised)
      rw [← Entry.ending?, ends] at course
      simp only [List.map_cons, Overflow.Course.ofDiagnostics, incomplete]
      exact course
  | @next entry rest fits _ ih =>
      rw [HasNumbers, List.forall_mem_cons] at numbers
      have complete := (@Overflow.Course.isComplete_ofDiagnostic_iff machine base options
        kind.theme entry.diagnostic numbers.1).mpr fits
      simp only [List.map_cons, Overflow.Course.ofDiagnostics, complete, if_true]
      exact ih numbers.2

end Entries

/-!
# Documents of texts
-/

section Documents

variable {machine : Machine} {document : Document} {options : Options}

/-- The diagnostics of a document, each drawn alone. -/
def rendering (machine : Machine) (document : Document) (options : Options) (kind : EmitterKind) :
    String :=
  String.join (document.entries.map fun entry =>
    Overflow.written machine document.base.lookup options kind.theme kind [entry.diagnostic])

theorem reportEntries_of_fits (kind : EmitterKind) (numbers : HasNumbers document.entries)
    (texts : ∀ entry ∈ document.entries, entry.HasTexts)
    (fits : ∀ entry ∈ document.entries, entry.Fits machine document.base options kind) :
    let drawing := document.reportEntries options kind machine
    drawing.fault = none ∧ drawing.report.failure = none ∧
      drawing.report.emitter.sink.written = document.rendering machine options kind := by
  have complete : ∀ diagnostic ∈ document.entries.map Entry.diagnostic,
      (Overflow.Course.ofDiagnostic machine document.base.lookup options kind.theme
        diagnostic).isComplete = true := by
    intro diagnostic member
    rcases List.mem_map.mp member with ⟨entry, listed, rfl⟩
    exact (Overflow.Course.isComplete_ofDiagnostic_iff (numbers entry listed)).mpr
      (fits entry listed)
  have course := Overflow.Course.isComplete_iff.mp
    ((Overflow.Course.isComplete_ofDiagnostics_iff _).mpr complete)
  have drawn := @Overflow.runs_kind machine document.base.lookup options kind.theme kind
    (document.entries.map Entry.diagnostic)
  have accepts : ({ kind } : Emitter).Accepts := fun _ _ _ => rfl
  have all : Overflow.Course.completed machine document.base.lookup options kind.theme
      (document.entries.map Entry.diagnostic) = document.entries.map Entry.diagnostic :=
    List.takeWhile_eq_self_iff.mpr complete
  have none : Overflow.Course.stopped? machine document.base.lookup options kind.theme
      (document.entries.map Entry.diagnostic) = none := by
    rw [Overflow.Course.stopped?, List.find?_eq_none]
    intro diagnostic member
    rw [complete diagnostic member]
    exact Bool.false_ne_true
  intro drawing
  have same : drawing = _ := reportEntries_eq_emitAll texts
  rw [same]
  refine ⟨drawn.fault_eq.trans course.2, drawn.failure_eq.trans course.1, ?_⟩
  rw [Overflow.written_emitAll accepts, all, none, Option.toList_none, List.append_nil,
    List.map_map]
  exact String.empty_append

theorem reportEntries_of_reaches (kind : EmitterKind) (numbers : HasNumbers document.entries)
    (texts : ∀ entry ∈ document.entries, entry.HasTexts) {raised : Raised}
    (reached : Reaches (Entry.Fits machine document.base options kind)
      (fun entry => entry.ending? machine document.base options kind = some raised)
      document.entries) :
    let drawing := document.reportEntries options kind machine
    drawing.fault = raised.fault? ∧ drawing.report.failure = raised.failure? := by
  have course := ends_of_reaches numbers reached
  have drawn := @Overflow.runs_kind machine document.base.lookup options kind.theme kind
    (document.entries.map Entry.diagnostic)
  rw [reportEntries_eq_emitAll texts]
  exact ⟨drawn.fault_eq.trans course.2, drawn.failure_eq.trans course.1⟩

end Documents

end Document
end SourceReport
