import SourceReport.Proofs.DocumentFiles
import SourceReport.Proofs.ShortNumbers

/-!
# Faults of documents

A document is read part by part, and the first part that is wrong decides whether it is reported or
ends the reading in a fault. What is wrong within a diagnostic is reported, unless a number is
infinite. What is wrong with the lists or with a whole diagnostic is not.
-/

namespace SourceReport
namespace Document

variable {tree : FileTree} {path : Path} {value : Value} {fields : Fields}

/-!
# Labels
-/

/-- A reading that may be refused, but does not end in a fault. -/
def Unfaulty {α : Type} (reading : Reading α) : Prop :=
  ∀ found, reading ≠ .error (.fault found)

theorem unfaulty_ok {α : Type} (value : α) : Unfaulty (.ok value) :=
  fun _ failed => nomatch failed

theorem unfaulty_refuse {α : Type} (problem : Problem) : Unfaulty (refuse problem : Reading α) :=
  fun _ failed => nomatch failed

theorem Unfaulty.bind {α β : Type} {reading : Reading α} {next : α → Reading β}
    (h : Unfaulty reading) (others : ∀ value, Unfaulty (next value)) :
    Unfaulty (reading >>= next) := by
  intro found failed
  rcases bind_eq_error_iff.mp failed with first | ⟨value, _, later⟩
  · exact h found first
  · exact others value found later

theorem Unfaulty.bind_eq_fault_iff {α β : Type} {reading : Reading α} {next : α → Reading β}
    (h : Unfaulty reading) {found : Fault} :
    (reading >>= next) = .error (.fault found) ↔
      ∃ value, reading = .ok value ∧ next value = .error (.fault found) := by
  rw [bind_eq_error_iff]
  constructor
  · rintro (first | later)
    · exact absurd first (h found)
    · exact later
  · intro later
    exact Or.inr later

theorem unfaulty_required (fields : Fields) (name : String) : Unfaulty (required fields name) := by
  rw [required]
  split
  · exact unfaulty_ok _
  · exact unfaulty_refuse _

theorem unfaulty_name {α : Type} (ofName? : String → Option α) (kind : String) (value : Value) :
    Unfaulty (name ofName? kind value) := by
  rw [name]
  split
  · exact unfaulty_ok _
  · exact unfaulty_refuse _

theorem unfaulty_elementsOr (fields : Fields) (name : String) :
    Unfaulty (elementsOr fields name) := by
  rw [elementsOr]
  split
  · rw [elements]
    split
    · exact unfaulty_ok _
    · exact unfaulty_refuse _
  · exact unfaulty_ok _

theorem unfaulty_fileId (names : FileNames) (value : Value) : Unfaulty (fileId names value) := by
  have identified : Unfaulty (identifier value) := by
    cases value with
    | scalar s => exact unfaulty_ok s
    | list items => exact unfaulty_refuse _
    | table fields => exact unfaulty_refuse _
  refine identified.bind fun file => ?_
  split
  · exact unfaulty_ok _
  · exact unfaulty_refuse _

theorem unfaulty_labelOf (style : LabelStyle) (id : Nat) (start stop : Int) (message : Value) :
    Unfaulty (labelOf style id start stop message) := by
  have made : ∀ text, Unfaulty ((Label.make style (.int id) start stop text).mapError fun error =>
      .problem (.badLabel error)) := by
    intro text found failed
    cases made : Label.make style (.int id) start stop text with
    | error error =>
        rw [made] at failed
        cases failed
    | ok label =>
        rw [made] at failed
        cases failed
  have broken : Unfaulty (holdsLineBreak message) := by
    simp only [holdsLineBreak]
    split
    · exact unfaulty_ok _
    · exact unfaulty_ok _
    · exact unfaulty_ok _
    · exact unfaulty_refuse _
  refine (made "").bind fun _ => broken.bind fun hasBreak => ?_
  split
  · exact unfaulty_refuse _
  · exact (made _).bind fun _ => unfaulty_ok _

/-- A number is made a whole one, unless it is infinite. -/
theorem exists_wholeNumber_eq_fault_iff :
    (∃ found, wholeNumber value = .error (.fault found)) ↔
      ∃ negative, value = .scalar (.real (.infinite negative)) := by
  constructor
  · rintro ⟨found, failed⟩
    cases value with
    | scalar s =>
        cases s with
        | real x =>
            cases x with
            | finite negative mantissa exponent => cases failed
            | infinite negative => exact ⟨negative, rfl⟩
            | notANumber => cases failed
        | text t =>
            rw [wholeNumber] at failed
            split at failed
            · cases failed
            · cases failed
            · cases failed
        | null => cases failed
        | bool b => cases failed
        | int n => cases failed
        | moment spelling => cases failed
    | list items => cases failed
    | table fields => cases failed
  · rintro ⟨negative, rfl⟩
    exact ⟨.unbounded, rfl⟩

/-- The label names a known file and a style. -/
def IsAddressed (names : FileNames) (fields : Fields) : Prop :=
  (∃ file id, Value.field? fields "file" = some file ∧ fileId names file = .ok id) ∧
    ∃ style, name LabelStyle.ofName? "LabelStyle"
      ((Value.field? fields "style").getD (.text "primary")) = .ok style

/-- What is wrong with a label without being reported: one of its ends is infinite. -/
inductive LabelCrashes (names : FileNames) : Value → Prop
  | start {fields : Fields} {negative : Bool} : IsAddressed names fields →
      Value.field? fields "start" = some (.scalar (.real (.infinite negative))) →
        LabelCrashes names (.table fields)
  | stop {fields : Fields} {negative : Bool} {start : Value} {n : Int} : IsAddressed names fields →
      Value.field? fields "start" = some start → wholeNumber start = .ok n →
        Value.field? fields "end" = some (.scalar (.real (.infinite negative))) →
          LabelCrashes names (.table fields)

theorem required_eq_ok_iff {name : String} :
    required fields name = .ok value ↔ Value.field? fields name = some value := by
  rw [required]
  cases Value.field? fields name with
  | none => exact ⟨fun same => (nomatch same), fun same => (nomatch same)⟩
  | some given => simp only [Except.ok.injEq, Option.some.injEq]

/-- A label ends the reading in a fault at one of its two numbers. -/
theorem readLabel_eq_fault_iff {names : FileNames} {found : Fault} :
    readLabel names (.table fields) = .error (.fault found) ↔
      IsAddressed names fields ∧ ∃ start, Value.field? fields "start" = some start ∧
        (wholeNumber start = .error (.fault found) ∨
          ∃ n, wholeNumber start = .ok n ∧ ∃ stop, Value.field? fields "end" = some stop ∧
            wholeNumber stop = .error (.fault found)) := by
  have labels := fun style id start stop message found =>
    iff_false_intro (unfaulty_labelOf style id start stop message found)
  simp only [readLabel, (unfaulty_required fields _).bind_eq_fault_iff,
    (unfaulty_fileId names _).bind_eq_fault_iff, (unfaulty_name _ _ _).bind_eq_fault_iff,
    bind_eq_error_iff, labels, required_eq_ok_iff, and_false, exists_false, or_false]
  constructor
  · rintro ⟨file, given, id, known, style, named, later⟩
    exact ⟨⟨⟨file, id, given, known⟩, style, named⟩, later⟩
  · rintro ⟨⟨⟨file, id, given, known⟩, style, named⟩, later⟩
    exact ⟨file, given, id, known, style, named, later⟩

theorem exists_readLabel_eq_fault_iff (names : FileNames) :
    (∃ found, readLabel names value = .error (.fault found)) ↔ LabelCrashes names value := by
  constructor
  · rintro ⟨found, failed⟩
    cases value with
    | scalar s => cases failed
    | list items => cases failed
    | table fields =>
        rcases readLabel_eq_fault_iff.mp failed with ⟨addressed, start, first, numbers⟩
        rcases numbers with infinite | ⟨n, whole, stop, last, infinite⟩
        · rcases exists_wholeNumber_eq_fault_iff.mp ⟨found, infinite⟩ with ⟨negative, rfl⟩
          exact .start addressed first
        · rcases exists_wholeNumber_eq_fault_iff.mp ⟨found, infinite⟩ with ⟨negative, rfl⟩
          exact .stop addressed first whole last
  · intro crash
    cases crash with
    | start addressed first =>
        exact ⟨.unbounded, readLabel_eq_fault_iff.mpr ⟨addressed, _, first, Or.inl rfl⟩⟩
    | stop addressed first whole last =>
        exact ⟨.unbounded, readLabel_eq_fault_iff.mpr
          ⟨addressed, _, first, Or.inr ⟨_, whole, _, last, rfl⟩⟩⟩

/-!
# Diagnostics
-/

/-- What is wrong with a diagnostic without being reported: it is no table, or its labels go wrong at
an infinite number. -/
inductive EntryCrashes (names : FileNames) : Value → Prop
  | noTable {value : Value} : (∀ fields, value ≠ .table fields) → EntryCrashes names value
  | label {fields : Fields} {labels : List Value} : elementsOr fields "labels" = .ok labels →
      Reaches (fun label => ∃ entry, readLabel names label = .ok entry) (LabelCrashes names) labels →
        EntryCrashes names (.table fields)

theorem exists_readEntry_eq_fault_iff (names : FileNames) :
    (∃ found, readEntry names value = .error (.fault found)) ↔ EntryCrashes names value := by
  cases value with
  | scalar s =>
      constructor
      · intro _
        exact .noTable fun _ same => nomatch same
      · intro _
        exact ⟨_, rfl⟩
  | list items =>
      constructor
      · intro _
        exact .noTable fun _ same => nomatch same
      · intro _
        exact ⟨_, rfl⟩
  | table fields =>
      have labels : (∃ found, readEntry names (.table fields) = .error (.fault found)) ↔
          ∃ labels, elementsOr fields "labels" = .ok labels ∧
            ∃ found, labels.mapM (readLabel names) = .error (.fault found) := by
        simp only [readEntry, (unfaulty_elementsOr fields _).bind_eq_fault_iff,
          (unfaulty_name _ _ _).bind_eq_fault_iff, bind_eq_error_iff, pure, Except.pure,
          reduceCtorEq, and_false, exists_false, or_false]
        constructor
        · rintro ⟨found, labels, given, failed⟩
          exact ⟨labels, given, found, failed⟩
        · rintro ⟨labels, given, found, failed⟩
          exact ⟨found, labels, given, failed⟩
      rw [labels]
      constructor
      · rintro ⟨labels, given, failed⟩
        rw [exists_mapM_eq_error_iff] at failed
        simp only [exists_readLabel_eq_fault_iff] at failed
        exact .label given failed
      · intro crash
        cases crash with
        | noTable other => exact absurd rfl (other fields)
        | @label _ labels given reached =>
            refine ⟨labels, given, ?_⟩
            rw [exists_mapM_eq_error_iff]
            simp only [exists_readLabel_eq_fault_iff]
            exact reached

theorem exists_readEntries_eq_fault_iff (names : FileNames) (index : Nat) (items : List Value) :
    (∃ found, readEntries names index items = fault found) ↔
      Reaches (fun item => ∃ entry, readEntry names item = .ok entry) (EntryCrashes names) items := by
  induction items generalizing index with
  | nil =>
      constructor
      · rintro ⟨found, failed⟩
        cases failed
      · intro reached
        exact absurd reached Reaches.not_nil
  | cons item rest ih =>
      rw [Reaches.cons_iff, ← exists_readEntry_eq_fault_iff, ← ih (index + 1), readEntries]
      cases first : readEntry names item with
      | error refusal =>
          cases refusal with
          | problem problem =>
              constructor
              · rintro ⟨found, failed⟩
                cases failed
              · rintro (⟨found, failed⟩ | ⟨⟨entry, read⟩, _⟩)
                · cases failed
                · cases read
          | fault found =>
              constructor
              · intro _
                exact Or.inl ⟨found, rfl⟩
              · intro _
                exact ⟨found, rfl⟩
      | ok entry =>
          constructor
          · rintro ⟨found, failed⟩
            rcases bind_eq_error_iff.mp failed with later | ⟨_, _, done⟩
            · exact Or.inr ⟨⟨entry, rfl⟩, found, later⟩
            · cases done
          · rintro (⟨found, failed⟩ | ⟨_, found, later⟩)
            · cases failed
            · refine ⟨found, bind_eq_error_iff.mpr (Or.inl later)⟩

/-!
# The whole document
-/

theorem readFiles_eq_mapM (tree : FileTree) (path : Path) (items : List Value) :
    (readFiles tree path items).2 = items.mapM (readFile tree path) := by
  induction items with
  | nil => rfl
  | cons item rest ih =>
      cases first : readFile tree path item with
      | error failure =>
          rw [mapM_cons_of_error _ first, readFiles, first]
      | ok file =>
          rw [mapM_cons_of_ok _ first, ← ih, readFiles, first]

/-- The name of a file, if it is as it should be. -/
def itemName (item : Value) : Scalar :=
  match item with
  | .table fields =>
      match fileName fields with
      | .scalar name => name
      | _ => .null
  | _ => .null

def namesOf (items : List Value) : FileNames :=
  (items.map itemName).zipIdx

/-- What is wrong with a document without being reported. -/
inductive Crashes : Value → Prop
  | files {fields : Fields} {files : Value} : Value.field? fields "files" = some files →
      elements? files = none → Crashes (.table fields)
  | file {fields : Fields} {items : List Value} : listed fields "files" = .ok items →
      Reaches IsFile FileCrashes items → Crashes (.table fields)
  | diagnostics {fields : Fields} {items : List Value} {diagnostics : Value} :
      listed fields "files" = .ok items → (∀ item ∈ items, IsFile item) →
        Value.field? fields "diagnostics" = some diagnostics → elements? diagnostics = none →
          Crashes (.table fields)
  | diagnostic {fields : Fields} {items entries : List Value} :
      listed fields "files" = .ok items → (∀ item ∈ items, IsFile item) →
        listed fields "diagnostics" = .ok entries →
          Reaches (fun entry => ∃ diagnostic, readEntry (namesOf items) entry = .ok diagnostic)
            (EntryCrashes (namesOf items)) entries → Crashes (.table fields)

/-- All files that a document names can be read. -/
def ReadsFiles (tree : FileTree) (path : Path) (value : Value) : Prop :=
  ∀ fields items, value = .table fields → listed fields "files" = .ok items →
    ∀ item ∈ items, IsReadable tree path item

theorem exists_listed_eq_fault_iff {name : String} :
    (∃ found, listed fields name = fault found) ↔
      ∃ value, Value.field? fields name = some value ∧ elements? value = none := by
  rw [listed]
  cases given : Value.field? fields name with
  | none =>
      constructor
      · rintro ⟨found, failed⟩
        cases failed
      · rintro ⟨value, same, _⟩
        cases same
  | some value =>
      cases items : elements? value with
      | none =>
          simp only [items, Option.some.injEq, exists_eq_left', iff_true]
          exact ⟨.wrongKind, rfl⟩
      | some list =>
          simp only [items, Option.some.injEq, exists_eq_left', reduceCtorEq, iff_false]
          rintro ⟨found, failed⟩
          cases failed

/-- The files come first, then the list of diagnostics, then the diagnostics. -/
theorem ofFields_eq (tree : FileTree) (path : Path) (fields : Fields) :
    (ofFields tree path fields).2 =
      (listed fields "files" >>= fun items =>
        items.mapM (readFile tree path) >>= fun files =>
          (listed fields "diagnostics" >>= readEntries (fileNames files) 0) >>= fun entries =>
            .ok { files := files.map (·.2), entries }) := by
  rw [ofFields]
  cases listed fields "files" with
  | error failure => rfl
  | ok items =>
      have read := readFiles_eq_mapM tree path items
      cases outcome : readFiles tree path items with
      | mk traces files =>
          rw [outcome] at read
          simp only [bind, Except.bind, outcome, ← read]
          cases files with
          | error failure => rfl
          | ok files =>
              simp only
              split
              · rename_i failed
                rw [failed]
              · rename_i done
                rw [done]

theorem name_eq_of_readFile {file : Scalar × DocumentFile}
    (read : readFile tree path value = .ok file) : file.1 = itemName value := by
  cases value with
  | scalar s => cases read
  | list items => cases read
  | table fields =>
      rw [readFile_table] at read
      cases found : readSource tree path fields (fileName fields) with
      | error failure =>
          rw [found] at read
          cases read
      | ok source =>
          rw [found] at read
          rw [itemName]
          cases named : fileName fields with
          | scalar name =>
              rw [named] at read
              cases read
              rfl
          | list items =>
              rw [named] at read
              cases read
          | table others =>
              rw [named] at read
              cases read

theorem fileNames_eq {items : List Value} {files : List (Scalar × DocumentFile)}
    (read : items.mapM (readFile tree path) = .ok files) : fileNames files = namesOf items := by
  have names : files.map (·.1) = items.map itemName := by
    have pairs := forall₂_of_mapM_eq_ok _ read
    clear read
    induction pairs with
    | nil => rfl
    | cons first _ ih => rw [List.map_cons, List.map_cons, ih, name_eq_of_readFile first]
  rw [namesOf, ← names, List.zipIdx_map]
  rfl

section Value

variable (reads : ReadsFiles tree path value)

include reads

theorem exists_files_of_forall {items : List Value} {fields : Fields} (is : value = .table fields)
    (given : listed fields "files" = .ok items) (all : ∀ item ∈ items, IsFile item) :
    ∃ files, items.mapM (readFile tree path) = .ok files :=
  mapM_eq_ok_of_forall _ fun item member =>
    (all item member).exists_readFile (reads fields items is given item member)

theorem crashes_of_fault {found : Fault} (failed : (ofValue tree path value).2 = fault found) :
    Crashes value := by
  cases value with
  | scalar s => cases failed
  | list items => cases failed
  | table fields =>
      have parts := (ofFields_eq tree path fields).symm.trans failed
      rcases bind_eq_error_iff.mp parts with noFiles | ⟨items, given, parts⟩
      · rcases exists_listed_eq_fault_iff.mp ⟨found, noFiles⟩ with ⟨files, asked, noItems⟩
        exact .files asked noItems
      have readable := reads fields items rfl given
      rcases bind_eq_error_iff.mp parts with noFile | ⟨files, read, parts⟩
      · refine .file given ?_
        have reached := (exists_mapM_eq_error_iff _ _ _).mp ⟨found, noFile⟩
        refine (Reaches.congr ?_ ?_).mp reached
        · intro item member
          exact exists_readFile_iff (readable item member)
        · intro item member
          exact exists_fault_iff (readable item member)
      have all : ∀ item ∈ items, IsFile item := fun item member =>
        (exists_readFile_iff (readable item member)).mp (exists_ok_of_mapM_eq_ok _ read item member)
      rcases bind_eq_error_iff.mp parts with noEntries | ⟨entries, _, done⟩
      · rcases bind_eq_error_iff.mp noEntries with noList | ⟨diagnostics, listed, noEntry⟩
        · rcases exists_listed_eq_fault_iff.mp ⟨found, noList⟩ with ⟨value, asked, noItems⟩
          exact .diagnostics given all asked noItems
        · rw [fileNames_eq read] at noEntry
          exact .diagnostic given all listed
            ((exists_readEntries_eq_fault_iff _ _ _).mp ⟨found, noEntry⟩)
      · cases done

theorem Crashes.exists_fault (crash : Crashes value) :
    ∃ found, (ofValue tree path value).2 = fault found := by
  -- The parts before the one that is wrong are all as they should be.
  cases crash with
  | @files fields files asked noItems =>
      rcases exists_listed_eq_fault_iff.mpr ⟨files, asked, noItems⟩ with ⟨found, failed⟩
      refine ⟨found, (ofFields_eq tree path fields).trans ?_⟩
      rw [failed]
      rfl
  | @file fields items given reached =>
      have readable := reads fields items rfl given
      have stopped : Reaches (fun item => ∃ file, readFile tree path item = .ok file)
          (fun item => ∃ found, readFile tree path item = fault found) items := by
        refine (Reaches.congr ?_ ?_).mpr reached
        · intro item member
          exact exists_readFile_iff (readable item member)
        · intro item member
          exact exists_fault_iff (readable item member)
      rcases (exists_mapM_eq_error_iff _ _ _).mpr stopped with ⟨found, failed⟩
      refine ⟨found, (ofFields_eq tree path fields).trans ?_⟩
      refine bind_eq_error_iff.mpr (Or.inr ⟨items, given, ?_⟩)
      exact bind_eq_error_iff.mpr (Or.inl failed)
  | @diagnostics fields items diagnostics given all asked noItems =>
      rcases exists_files_of_forall reads rfl given all with ⟨files, read⟩
      rcases exists_listed_eq_fault_iff.mpr ⟨diagnostics, asked, noItems⟩ with ⟨found, failed⟩
      refine ⟨found, (ofFields_eq tree path fields).trans ?_⟩
      refine bind_eq_error_iff.mpr (Or.inr ⟨items, given, ?_⟩)
      refine bind_eq_error_iff.mpr (Or.inr ⟨files, read, ?_⟩)
      rw [failed]
      rfl
  | @diagnostic fields items entries given all listed reached =>
      rcases exists_files_of_forall reads rfl given all with ⟨files, read⟩
      rcases (exists_readEntries_eq_fault_iff _ 0 _).mpr reached with ⟨found, failed⟩
      refine ⟨found, (ofFields_eq tree path fields).trans ?_⟩
      refine bind_eq_error_iff.mpr (Or.inr ⟨items, given, ?_⟩)
      refine bind_eq_error_iff.mpr (Or.inr ⟨files, read, ?_⟩)
      rw [listed, fileNames_eq read]
      exact bind_eq_error_iff.mpr (Or.inl failed)

end Value

theorem exists_ofValue_eq_fault_iff (reads : ReadsFiles tree path value) :
    (∃ found, (ofValue tree path value).2 = fault found) ↔ Crashes value :=
  ⟨fun ⟨_, failed⟩ => crashes_of_fault reads failed, Crashes.exists_fault reads⟩

/-!
# Labels of a document

The labels of a document that is loaded name its files by their places. Their ends are numbers that
can be written, if that holds of all numbers in the document.
-/

theorem isWritable_of_wholeNumber {n : Int} (short : value.IsShort)
    (read : wholeNumber value = .ok n) : Digits.isWritable n = true := by
  cases short with
  | list items => cases read
  | table fields => cases read
  | @scalar s short =>
      cases s with
      | null => cases read
      | moment spelling => cases read
      | bool b =>
          cases b with
          | true =>
              cases read
              decide
          | false =>
              cases read
              decide
      | int number =>
          cases read
          exact short
      | real x =>
          rw [wholeNumber] at read
          split at read
          · rename_i cut
            cases read
            exact short _ cut
          · split at read
            · cases read
            · cases read
      | text t =>
          rw [wholeNumber] at read
          split at read
          · rename_i number
            cases read
            exact IntegerText.isWritable_of_read number
          · cases read
          · cases read

theorem label_eq_of_make {style : LabelStyle} {file : Scalar} {start stop : Int} {text : String}
    {label : Label} {wrong : LabelError → Refusal}
    (made : (Label.make style file start stop text).mapError wrong = .ok label) :
    label.file = file ∧ (label.start : Int) = start ∧ (label.stop : Int) = stop := by
  rw [Label.make] at made
  split at made
  · cases made
  · rename_i natural
    split at made
    · cases made
    · rename_i order
      split at made
      · cases made
      · cases made
        exact ⟨rfl, Int.toNat_of_nonneg (by omega), Int.toNat_of_nonneg (by omega)⟩

/-- Where the parts of a label are read from. -/
theorem parts_of_readLabel {names : FileNames} {entry : LabelEntry}
    (read : readLabel names value = .ok entry) :
    ∃ fields, value = .table fields ∧
      (∃ file id, fileId names file = .ok id ∧ entry.label.file = .int id) ∧
      (∃ start, Value.field? fields "start" = some start ∧
        wholeNumber start = .ok entry.label.start) ∧
      ∃ stop, Value.field? fields "end" = some stop ∧ wholeNumber stop = .ok entry.label.stop := by
  cases value with
  | scalar s => cases read
  | list items => cases read
  | table fields =>
      simp only [readLabel, labelOf, bind_eq_ok_iff, required_eq_ok_iff] at read
      rcases read with ⟨file, _, id, known, _, _, start, begins, _, begun, stop, ends, _, ended, _,
        _, hasBreak, _, made⟩
      cases hasBreak with
      | true => cases made
      | false =>
          rcases bind_eq_ok_iff.mp made with ⟨label, labelled, done⟩
          cases done
          rcases label_eq_of_make labelled with ⟨same, rfl, rfl⟩
          exact ⟨fields, rfl, ⟨file, id, known, same⟩, ⟨start, begins, begun⟩, stop, ends, ended⟩

theorem readLabel_of_readEntry {names : FileNames} {entry : Entry}
    (read : readEntry names value = .ok entry) :
    ∀ label ∈ entry.labels, ∃ fields items item, value = .table fields ∧
      elementsOr fields "labels" = .ok items ∧ item ∈ items ∧ readLabel names item = .ok label := by
  cases value with
  | scalar s => cases read
  | list items => cases read
  | table fields =>
      simp only [readEntry, bind_eq_ok_iff] at read
      rcases read with ⟨items, listed, labels, each, _, _, _, _, done⟩
      cases done
      intro label member
      rcases exists_item_of_mapM_eq_ok _ each label member with ⟨item, among, labelled⟩
      exact ⟨fields, items, item, rfl, listed, among, labelled⟩

theorem exists_item_of_readEntries {names : FileNames} {index : Nat} {items : List Value}
    {entries : List Entry} (read : readEntries names index items = .ok entries) :
    ∀ entry ∈ entries, ∃ item ∈ items, readEntry names item = .ok entry := by
  induction items generalizing index entries with
  | nil =>
      cases read
      exact List.forall_mem_nil _
  | cons item rest ih =>
      rw [readEntries] at read
      cases first : readEntry names item with
      | error refusal =>
          rw [first] at read
          cases refusal with
          | problem problem => cases read
          | fault found => cases read
      | ok entry =>
          rw [first] at read
          rcases bind_eq_ok_iff.mp read with ⟨others, later, done⟩
          cases done
          refine List.forall_mem_cons.mpr ⟨⟨item, List.mem_cons_self, first⟩, ?_⟩
          intro other listed
          rcases ih later other listed with ⟨given, member, read⟩
          exact ⟨given, List.mem_cons_of_mem item member, read⟩

/-- Where the entries of a document are read from. -/
theorem entries_of_ofValue {document : Document}
    (loaded : (ofValue tree path value).2 = .ok document) :
    ∃ fields files items, value = .table fields ∧ document.files.length = files.length ∧
      listed fields "diagnostics" = .ok items ∧
        ∀ entry ∈ document.entries, ∃ item ∈ items, readEntry (fileNames files) item = .ok entry := by
  cases value with
  | scalar s => cases loaded
  | list items => cases loaded
  | table fields =>
      have parts := (ofFields_eq tree path fields).symm.trans loaded
      simp only [bind_eq_ok_iff] at parts
      rcases parts with ⟨_, _, files, _, entries, ⟨items, given, read⟩, done⟩
      cases done
      exact ⟨fields, files, items, rfl, List.length_map _, given, exists_item_of_readEntries read⟩

/-!
# Files of labels
-/

theorem lt_of_fileId {files : List (Scalar × DocumentFile)} {id : Nat}
    (known : fileId (fileNames files) value = .ok id) : id < files.length := by
  rcases bind_eq_ok_iff.mp known with ⟨file, _, found⟩
  split at found
  · rename_i name place named
    cases found
    have listed := List.mem_reverse.mp (List.mem_of_find?_eq_some named)
    rcases List.mem_map.mp listed with ⟨⟨given, place⟩, member, same⟩
    cases same
    exact List.snd_lt_of_mem_zipIdx member
  · cases found

theorem file_of_ofValue {document : Document}
    (loaded : (ofValue tree path value).2 = .ok document) :
    ∀ entry ∈ document.entries, ∀ label ∈ entry.diagnostic.labels,
      ∃ id : Nat, id < document.files.length ∧ label.file = .int id := by
  rcases entries_of_ofValue loaded with ⟨_, files, _, _, length, _, read⟩
  intro entry listed label member
  rcases List.mem_map.mp member with ⟨given, labelled, rfl⟩
  rcases read entry listed with ⟨_, _, read⟩
  rcases readLabel_of_readEntry read given labelled with ⟨_, _, _, _, _, _, read⟩
  rcases parts_of_readLabel read with ⟨_, _, ⟨_, id, known, same⟩, _⟩
  exact ⟨id, length ▸ lt_of_fileId known, same⟩

/-- The labels name their files by numbers. -/
def HasNumbers (entries : List Entry) : Prop :=
  ∀ entry ∈ entries, ∀ label ∈ entry.diagnostic.labels, label.file.whole?.isSome = true

theorem hasNumbers_of_ofValue {document : Document}
    (loaded : (ofValue tree path value).2 = .ok document) : HasNumbers document.entries := by
  intro entry listed label member
  rcases file_of_ofValue loaded entry listed label member with ⟨id, _, same⟩
  rw [same]
  rfl

/-!
# Ends of labels
-/

theorem isShort_of_elements? (short : value.IsShort) {items : List Value}
    (found : elements? value = some items) : ∀ item ∈ items, item.IsShort := by
  cases short with
  | list all =>
      cases found
      exact all
  | table all =>
      cases found
      intro item member
      rcases List.mem_map.mp member with ⟨_, _, rfl⟩
      exact .scalar trivial
  | @scalar s _ =>
      cases s with
      | text t =>
          cases found
          intro item member
          rcases List.mem_map.mp member with ⟨_, _, rfl⟩
          exact .scalar trivial
      | null => cases found
      | bool b => cases found
      | int n => cases found
      | real x => cases found
      | moment spelling => cases found

theorem isShort_of_elementsOr (short : ∀ field ∈ fields, field.2.IsShort) {name : String}
    {items : List Value} (found : elementsOr fields name = .ok items) :
    ∀ item ∈ items, item.IsShort := by
  rw [elementsOr] at found
  split at found
  · rename_i value given
    rw [elements] at found
    split at found
    · rename_i others parts
      cases found
      exact isShort_of_elements? (Value.isShort_of_field? short given) parts
    · cases found
  · cases found
    exact List.forall_mem_nil _

theorem isShort_of_listed (short : ∀ field ∈ fields, field.2.IsShort) {name : String}
    {items : List Value} (found : listed fields name = .ok items) :
    ∀ item ∈ items, item.IsShort := by
  rw [listed] at found
  split at found
  · cases found
    exact List.forall_mem_nil _
  · rename_i value given
    split at found
    · rename_i others parts
      cases found
      exact isShort_of_elements? (Value.isShort_of_field? short given) parts
    · cases found

/-- Both ends of the label are numbers that can be written. -/
def HasShortEnds (label : Label) : Prop :=
  Digits.isWritable label.start = true ∧ Digits.isWritable label.stop = true

theorem hasShortEnds_of_readEntry {names : FileNames} {entry : Entry} (short : value.IsShort)
    (read : readEntry names value = .ok entry) :
    ∀ label ∈ entry.diagnostic.labels, HasShortEnds label := by
  intro label member
  rcases List.mem_map.mp member with ⟨given, labelled, rfl⟩
  rcases readLabel_of_readEntry read given labelled with
    ⟨fields, items, item, rfl, listed, among, read⟩
  cases short with
  | table all =>
      have inner := isShort_of_elementsOr all listed item among
      rcases parts_of_readLabel read with
        ⟨parts, rfl, _, ⟨start, begins, begun⟩, stop, ends, ended⟩
      cases inner with
      | table each =>
          exact ⟨isWritable_of_wholeNumber (Value.isShort_of_field? each begins) begun,
            isWritable_of_wholeNumber (Value.isShort_of_field? each ends) ended⟩

theorem hasShortEnds_of_ofValue {document : Document} (short : value.IsShort)
    (loaded : (ofValue tree path value).2 = .ok document) :
    ∀ entry ∈ document.entries, ∀ label ∈ entry.diagnostic.labels, HasShortEnds label := by
  rcases entries_of_ofValue loaded with ⟨fields, _, items, rfl, _, given, read⟩
  intro entry listed
  rcases read entry listed with ⟨item, member, read⟩
  cases short with
  | table all => exact hasShortEnds_of_readEntry (isShort_of_listed all given item member) read

/-- A document that is loaded is that of a value with short numbers. -/
theorem exists_ofValue_of_load {document : Document} (loaded : (load tree path).2 = .ok document) :
    ∃ value, value.IsShort ∧ (ofValue tree path value).2 = .ok document := by
  rw [load] at loaded
  split at loaded
  · cases loaded
  · split at loaded
    · cases loaded
    · cases loaded
    · rename_i value read
      exact ⟨value, Json.isShort_of_read read, loaded⟩

theorem hasNumbers_of_load {document : Document} (loaded : (load tree path).2 = .ok document) :
    HasNumbers document.entries := by
  rcases exists_ofValue_of_load loaded with ⟨value, _, given⟩
  exact hasNumbers_of_ofValue given

theorem hasShortEnds_of_load {document : Document} (loaded : (load tree path).2 = .ok document) :
    ∀ entry ∈ document.entries, ∀ label ∈ entry.diagnostic.labels, HasShortEnds label := by
  rcases exists_ofValue_of_load loaded with ⟨value, short, given⟩
  exact hasShortEnds_of_ofValue short given

end Document
end SourceReport
