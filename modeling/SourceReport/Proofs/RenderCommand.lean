import SourceReport.CommandLine
import SourceReport.Proofs.TextEntries

/-!
# The render command

A document is drawn as a whole before anything is written. The command then ends in one of four
ways: with the text of all diagnostics, with one line about the first label that is not valid, with
the fault of a piece that cannot be made, or with a text that cannot be written out.
-/

namespace SourceReport

/-!
# Texts on one line
-/

/-- A text that holds no line break and does not begin a control sequence. -/
def IsPlainLine (text : String) : Prop :=
  ∀ c ∈ text.toList, c ≠ '\n' ∧ c ≠ '\x1b'

instance (text : String) : Decidable (IsPlainLine text) :=
  List.decidableBAll (fun c => c ≠ '\n' ∧ c ≠ '\x1b') text.toList

namespace IsPlainLine

theorem append {front back : String} (h : IsPlainLine front) (next : IsPlainLine back) :
    IsPlainLine (front ++ back) := by
  intro c member
  rw [String.toList_append, List.mem_append] at member
  rcases member with inside | inside
  · exact h c inside
  · exact next c inside

theorem nat (n : Nat) : IsPlainLine (toString n) := by
  intro c member
  rw [Nat.toString_eq_repr, Nat.toList_repr] at member
  have digit := Nat.isDigit_of_mem_toDigits (by decide) (by decide) member
  constructor
  · rintro rfl
    cases digit
  · rintro rfl
    cases digit

theorem int (n : Int) : IsPlainLine (toString n) := by
  cases n with
  | ofNat n => exact nat n
  | negSucc n =>
      have minus : IsPlainLine "-" := by decide
      exact minus.append (nat (n + 1))

/-- A number is spelled on one line. -/
theorem quotedText {id : Scalar} (number : id.whole?.isSome = true) :
    IsPlainLine id.quotedText := by
  cases id with
  | int n => exact int n
  | bool b =>
      cases b with
      | false => decide
      | true => decide
  | null => cases number
  | real x => cases number
  | text t => cases number
  | moment spelling => cases number

end IsPlainLine

/-- The rejection of a label in a file with a number is told on one line. -/
theorem Label.isPlainLine_of_rejection? {base : FileBase} {label : Label} {failure : Failure}
    (number : label.file.whole?.isSome = true) (rejected : label.rejection? base = some failure) :
    IsPlainLine failure.message := by
  rw [rejection?] at rejected
  split at rejected
  · cases rejected
    have front : IsPlainLine "file missing: " := by decide
    exact front.append (.quotedText number)
  · split at rejected
    · cases rejected
      have front : IsPlainLine "invalid index " := by decide
      have middle : IsPlainLine ", maximum index is " := by decide
      exact ((front.append (.int _)).append middle).append (.int _)
    · have front : IsPlainLine "index is not a code point boundary: " := by decide
      split at rejected
      · cases rejected
        exact front.append (.int _)
      · split at rejected
        · cases rejected
          exact front.append (.int _)
        · cases rejected

namespace CommandLine

/-!
# Plain texts
-/

theorem afterSequence?_eq_none {c : Char} (plain : c ≠ '\x1b') (rest : List Char) :
    afterSequence? (c :: rest) = none := by
  rw [afterSequence?]
  rintro others ⟨⟩
  exact plain rfl

theorem withoutSequences_eq_self {text : List Char} (plain : '\x1b' ∉ text) {fuel : Nat}
    (enough : text.length ≤ fuel) : withoutSequences fuel text = text := by
  induction text generalizing fuel with
  | nil =>
      cases fuel with
      | zero => rfl
      | succ fuel => rfl
  | cons c rest ih =>
      rw [List.mem_cons, not_or] at plain
      cases fuel with
      | zero => cases enough
      | succ fuel =>
          have others := ih plain.2 (Nat.le_of_succ_le_succ enough)
          simp only [withoutSequences, afterSequence?_eq_none (Ne.symm plain.1), others]

/-- A text without escapes is plain already. -/
theorem plainText_eq_self {text : String} (plain : '\x1b' ∉ text.toList) :
    plainText text = text := by
  have enough : text.toList.length ≤ text.length := Nat.le_of_eq (String.length_toList)
  rw [plainText, withoutSequences_eq_self plain enough, String.ofList_toList]

theorem shownOutput_eq_self {kind : EmitterKind} {text : String}
    (plain : kind = .ansi ∨ '\x1b' ∉ text.toList) : shownOutput kind text = text := by
  rcases plain with rfl | plain
  · rfl
  · cases kind with
    | ansi => rfl
    | plain => exact plainText_eq_self plain
    | markup => exact plainText_eq_self plain
    | debug => exact plainText_eq_self plain

theorem errorText_eq {message : String} (h : IsPlainLine message) :
    errorText message = "Error: " ++ message ++ "\n" := by
  have front : '\x1b' ∉ "Error: ".toList := by decide
  have back : '\x1b' ∉ "\n".toList := by decide
  have middle : '\x1b' ∉ message.toList := fun member => (h _ member).2 rfl
  apply plainText_eq_self
  rw [String.toList_append, String.toList_append, List.mem_append, List.mem_append, not_or, not_or]
  exact ⟨⟨front, middle⟩, back⟩

theorem isFailure_eq :
    isFailure = fun entry => decide (entry.severity = .error ∨ entry.severity = .bug) := by
  funext entry
  rw [isFailure]
  cases entry.severity with
  | help => rfl
  | note => rfl
  | warning => rfl
  | error => rfl
  | bug => rfl

/-!
# Drawing a document
-/

section Outcomes

variable {machine : Machine} {isTerminal : Bool} {settings : Settings} {document : Document}

theorem renderDocument_of_fits (numbers : Document.HasNumbers document.entries)
    (texts : ∀ entry ∈ document.entries, entry.HasTexts)
    (fits : ∀ entry ∈ document.entries, entry.Fits machine document.base settings.options
      (settings.emitterFor isTerminal))
    (whole : document.drawsBroken settings.options.displayStyle = false) :
    (renderDocument machine isTerminal settings document).2 =
      { status :=
          if document.entries.any fun entry => entry.severity = .error ∨ entry.severity = .bug
            then 1 else 0
        stdout := shownOutput (settings.emitterFor isTerminal)
          (document.rendering machine settings.options (settings.emitterFor isTerminal)) } := by
  rcases Document.reportEntries_of_fits (settings.emitterFor isTerminal) numbers texts fits with
    ⟨intact, unfailed, written⟩
  simp only [renderDocument, intact, unfailed, whole, written, isFailure_eq, Bool.false_eq_true,
    if_false]

theorem renderDocument_of_drawsBroken (numbers : Document.HasNumbers document.entries)
    (texts : ∀ entry ∈ document.entries, entry.HasTexts)
    (fits : ∀ entry ∈ document.entries, entry.Fits machine document.base settings.options
      (settings.emitterFor isTerminal))
    (broken : document.drawsBroken settings.options.displayStyle = true) :
    (renderDocument machine isTerminal settings document).2 =
      { status := 1, fault := some .unencodable } := by
  rcases Document.reportEntries_of_fits (settings.emitterFor isTerminal) numbers texts fits with
    ⟨intact, unfailed, _⟩
  simp only [renderDocument, intact, unfailed, broken, if_true]

/-- What a command ends with that cannot draw all entries. -/
def outcomeOf : Raised → Outcome
  | .failure failure => { status := 1, stderr := errorText failure.message }
  | .fault fault => { status := 1, fault := some fault }

theorem renderDocument_of_reaches (numbers : Document.HasNumbers document.entries)
    (texts : ∀ entry ∈ document.entries, entry.HasTexts) {raised : Raised}
    (reached : Reaches
      (Document.Entry.Fits machine document.base settings.options (settings.emitterFor isTerminal))
      (fun entry => entry.ending? machine document.base settings.options
        (settings.emitterFor isTerminal) = some raised) document.entries) :
    (renderDocument machine isTerminal settings document).2 = outcomeOf raised := by
  rcases Document.reportEntries_of_reaches (settings.emitterFor isTerminal) numbers texts
    reached with ⟨fault, failure⟩
  cases raised with
  | failure cause =>
      simp only [renderDocument, fault, failure, Raised.fault?, Raised.failure?, outcomeOf]
  | fault cause => simp only [renderDocument, fault, Raised.fault?, outcomeOf]

end Outcomes

theorem render_eq_of_loaded (machine : Machine) (program : ProgramArguments) (isTerminal : Bool)
    (settings : Settings) {tree : FileTree} {arguments : RenderArguments} {document : Document}
    (loaded : (Document.load tree (Path.ofText arguments.document)).2 = .ok document) :
    let drawn := renderDocument machine isTerminal (overridden settings arguments) document
    render program isTerminal settings tree arguments machine =
      { drawn.2 with
        stderr := shownTraces program
          ((Document.load tree (Path.ofText arguments.document)).1 ++ drawn.1) ++
            drawn.2.stderr } := by
  intro drawn
  unfold render
  generalize Document.load tree (Path.ofText arguments.document) = result at loaded ⊢
  rcases result with ⟨traces, result⟩
  subst loaded
  simp only [drawn]

/-!
# Letters on a command line

The document is read as the program finds it: a note about a line with a tab.
-/

namespace Letters

def text : List Char :=
  ["\x7b\"files\": [", "\x7b\"name\": \"letters\", ", "\"source\": \"a\\tb\"", "\x7d], ",
    "\"diagnostics\": [", "\x7b\"severity\": \"note\", ", "\"labels\": [",
    "\x7b\"file\": \"letters\", ", "\"start\": 0, \"end\": 1", "\x7d]\x7d]\x7d"].flatMap
      String.toList

def tree (text : List Char) : FileTree where
  root := ""
  cwd := []
  files := [([.whole "letters.json"], Utf8.encode text)]
  directories := []

def program : ProgramArguments where
  showVersion := false
  showHelp := false
  config := none
  verbose := false
  debug := false

def arguments : RenderArguments where
  document := "letters.json"
  surplus := []
  displayStyle := none
  tabWidth := none
  ascii := false
  color := none

theorem shownTraces_program (traces : List Trace) : shownTraces program traces = "" := by
  simp [shownTraces, program]

/-- The letters with a tab of more blanks than a text can have. -/
def wide : RenderArguments :=
  { arguments with tabWidth := some (Nat.pow 10 30) }

def path : Path :=
  .ofText (.whole "letters.json")

theorem readText_eq {text : List Char} (plain : unifyLineEnds text = text) :
    Document.readText (tree text) path = .ok text := by
  have whole : path.fault? = none := by decide
  have bytes : (tree text).read path = .ok (Utf8.encode text) := rfl
  rw [Document.readText, whole]
  simp only [bytes, Utf8.decode?_encode, plain]

/-- A text is loaded as the document that is read from it. -/
theorem exists_loaded {text : List Char} (plain : unifyLineEnds text = text)
    {holds : Document → Bool}
    (sound : (Json.read text).toOption.any (fun value =>
      (Document.ofValue (tree text) path value).2.toOption.any holds) = true) :
    ∃ document, (Document.load (tree text) path).2 = .ok document ∧ holds document = true := by
  cases read : Json.read text with
  | error unreadable =>
      rw [read] at sound
      cases sound
  | ok value =>
      have load : Document.load (tree text) path = Document.ofValue (tree text) path value := by
        simp only [Document.load, readText_eq plain, read]
      rw [load]
      rw [read] at sound
      cases loaded : (Document.ofValue (tree text) path value).2 with
      | error failure =>
          simp only [Except.toOption, Option.any_some, loaded] at sound
          cases sound
      | ok document =>
          simp only [Except.toOption, Option.any_some, loaded] at sound
          exact ⟨document, rfl, sound⟩

/-- The document, which fits unless its tab is too wide. -/
theorem exists_document :
    ∃ document, (Document.load (tree text) path).2 = .ok document ∧
      (∀ entry ∈ document.entries, entry.HasTexts) ∧
      (∀ entry ∈ document.entries, entry.Fits {} document.base {} .plain) ∧
      document.drawsBroken .rich = false ∧ '\x1b' ∉ (document.rendering {} {} .plain).toList ∧
      (document.entries.any fun entry => entry.severity = .error ∨ entry.severity = .bug) = false ∧
      (document.reportEntries { tabWidth := Nat.pow 10 30 } .plain).fault = some .uncountable := by
  have plain : unifyLineEnds text = text := by decide +kernel
  have sound : (Json.read text).toOption.any (fun value =>
      (Document.ofValue (tree text) path value).2.toOption.any fun document =>
        (∀ entry ∈ document.entries, entry.HasTexts) ∧
        (∀ entry ∈ document.entries, entry.Fits {} document.base {} .plain) ∧
        document.drawsBroken .rich = false ∧ '\x1b' ∉ (document.rendering {} {} .plain).toList ∧
        (document.entries.any fun entry => entry.severity = .error ∨ entry.severity = .bug) =
          false ∧
        (document.reportEntries { tabWidth := Nat.pow 10 30 } .plain).fault =
          some .uncountable) = true := by
    decide +kernel
  rcases exists_loaded plain sound with ⟨document, loaded, holds⟩
  exact ⟨document, loaded, of_decide_eq_true holds⟩

end Letters

/-!
# All or nothing
-/

/-- Either the texts of all diagnostics are written or nothing is, and the first entry that does not
fit decides how the command ends. -/
theorem render_exact (machine : Machine) (program : ProgramArguments) (isTerminal : Bool)
    (settings : Settings) (tree : FileTree) (arguments : RenderArguments) (document : Document)
    (loaded : (Document.load tree (Path.ofText arguments.document)).2 = .ok document)
    (texts : ∀ entry ∈ document.entries, entry.HasTexts) :
    let shown := overridden settings arguments
    let kind := shown.emitterFor isTerminal
    let ending? := Document.Entry.ending? machine document.base shown.options kind
    let fits := Document.Entry.Fits machine document.base shown.options kind
    let text := document.rendering machine shown.options kind
    let outcome := render program isTerminal settings tree arguments machine
    ∃ drawing,
      let told := shownTraces program
        ((Document.load tree (Path.ofText arguments.document)).1 ++ .emitterChosen kind :: drawing)
      ((∀ entry ∈ document.entries, fits entry) →
          document.drawsBroken shown.options.displayStyle = false →
            outcome =
              { status :=
                  if document.entries.any fun entry =>
                    entry.severity = .error ∨ entry.severity = .bug then 1 else 0
                stdout := shownOutput kind text
                stderr := told } ∧
            (kind = .ansi ∨ '\x1b' ∉ text.toList → outcome.stdout = text)) ∧
        ((∀ entry ∈ document.entries, fits entry) →
          document.drawsBroken shown.options.displayStyle = true →
            outcome = { status := 1, stderr := told, fault := some .unencodable }) ∧
        (∀ failure,
          Reaches fits (fun entry => ending? entry = some (.failure failure)) document.entries →
            IsPlainLine failure.message ∧
              outcome =
                { status := 1, stderr := told ++ ("Error: " ++ failure.message ++ "\n") }) ∧
        (∀ fault,
          Reaches fits (fun entry => ending? entry = some (.fault fault)) document.entries →
            outcome = { status := 1, stderr := told, fault := some fault }) ∧
        (document.base.HasShortNumbers → ∀ entry ∈ document.entries,
          (∀ failure, ending? entry = some (.failure failure) ↔
            entry.rejection? document.base = some failure) ∧
          ∀ fault, ending? entry = some (.fault fault) →
            entry.IsValid document.base ∧ Overflow.IsOverflow fault) ∧
        ((∃ entry ∈ document.entries, ¬ entry.IsValid document.base) →
          outcome.status = 1 ∧ outcome.stdout = "") := by
  intro shown kind ending? fits text outcome
  have numbers := Document.hasNumbers_of_load loaded
  have drawn : outcome = _ := render_eq_of_loaded machine program isTerminal settings loaded
  refine ⟨(document.reportEntries shown.options kind machine).report.traces, ?_⟩
  intro told
  have stopped : ∀ raised, Reaches fits (fun entry => ending? entry = some raised)
      document.entries →
        outcome =
          { outcomeOf raised with stderr := told ++ (outcomeOf raised).stderr } := by
    intro raised reached
    have ends : (renderDocument machine isTerminal shown document).2 = _ :=
      renderDocument_of_reaches numbers texts reached
    rw [drawn, ends]
    rfl
  refine ⟨?_, ?_, ?_, ?_, ?_, ?_⟩
  · intro fitting whole
    have complete : (renderDocument machine isTerminal shown document).2 = _ :=
      renderDocument_of_fits numbers texts fitting whole
    refine ⟨?_, fun plain => ?_⟩
    · rw [drawn, complete, String.append_empty]
      rfl
    · rw [drawn, complete]
      exact shownOutput_eq_self plain
  · intro fitting broken
    have ends : (renderDocument machine isTerminal shown document).2 = _ :=
      renderDocument_of_drawsBroken numbers texts fitting broken
    rw [drawn, ends, String.append_empty]
    rfl
  · intro failure reached
    rcases reached.exists_mem with ⟨entry, member, ends⟩
    rcases List.exists_of_findSome?_eq_some (Overflow.rejection?_of_ending? ends) with
      ⟨label, listed, invalid⟩
    have line := Label.isPlainLine_of_rejection? (numbers entry member label listed) invalid
    refine ⟨line, ?_⟩
    rw [stopped _ reached, outcomeOf, errorText_eq line]
  · intro fault reached
    rw [stopped _ reached, outcomeOf, String.append_empty]
  · intro short entry member
    exact Overflow.ending?_of_short short (Document.Entry.stop?_eq shown.options short
      (Document.holds_of_load loaded entry member)
      (Document.hasShortEnds_of_load loaded entry member))
  · rintro ⟨entry, member, invalid⟩
    rcases Document.forall_fits_or_reaches machine document.base shown.options kind
      document.entries with fitting | ⟨raised, reached⟩
    · exact absurd (Overflow.valid_of_ending? (fitting entry member)) invalid
    · rw [stopped raised reached]
      cases raised with
      | failure failure => exact ⟨rfl, rfl⟩
      | fault fault => exact ⟨rfl, rfl⟩

theorem render_exact_letters :
    ∃ document, (Document.load (Letters.tree Letters.text) Letters.path).2 = .ok document ∧
      (∀ entry ∈ document.entries, entry.HasTexts) ∧
      render Letters.program false {} (Letters.tree Letters.text) Letters.arguments =
        { status := 0, stdout := document.rendering {} {} .plain } := by
  rcases Letters.exists_document with ⟨document, loaded, texts, fits, whole, plain, mild, _⟩
  rcases render_exact {} Letters.program false {} (Letters.tree Letters.text) Letters.arguments
    document loaded texts with ⟨drawing, written, _⟩
  have same : shownOutput .plain (document.rendering {} {} .plain) =
      document.rendering {} {} .plain :=
    shownOutput_eq_self (Or.inr plain)
  refine ⟨document, loaded, texts, ?_⟩
  rw [(written fits whole).1, Letters.shownTraces_program, mild]
  exact congrArg (fun stdout => ({ status := 0, stdout } : Outcome)) same

/-- The tab would be more blanks than a text can have. The labels are valid and there is no error,
but nothing is written. -/
theorem render_interrupted_letters :
    ∃ document, (Document.load (Letters.tree Letters.text) Letters.path).2 = .ok document ∧
      (∀ entry ∈ document.entries, entry.HasTexts ∧ entry.IsValid document.base) ∧
      (document.entries.any fun entry => entry.severity = .error ∨ entry.severity = .bug) = false ∧
      render Letters.program false {} (Letters.tree Letters.text) Letters.wide =
        { status := 1, fault := some .uncountable } := by
  rcases Letters.exists_document with ⟨document, loaded, texts, fits, _, _, mild, stopped⟩
  refine ⟨document, loaded, ?_, mild, ?_⟩
  · intro entry member
    exact ⟨texts entry member, Overflow.valid_of_ending? (fits entry member)⟩
  · have found : (document.reportEntries (overridden {} Letters.wide).options
        ((overridden {} Letters.wide).emitterFor false)).fault = some .uncountable :=
      stopped
    have drawn : (renderDocument {} false (overridden {} Letters.wide) document).2 =
        { status := 1, fault := some .uncountable } := by
      simp only [renderDocument, found]
    have told : render Letters.program false {} (Letters.tree Letters.text) Letters.wide = _ :=
      render_eq_of_loaded {} Letters.program false {} loaded
    rw [told, drawn, Letters.shownTraces_program]
    rfl

end CommandLine
end SourceReport
