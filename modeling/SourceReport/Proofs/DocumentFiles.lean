import SourceReport.Document
import SourceReport.Proofs.Readings

/-!
# Files of documents

A file of a document should be a table with a name and a source, or with a path instead of one. Only a
file that has neither is reported. One that is wrong in another way ends the reading in a fault.
-/

namespace SourceReport
namespace Document

variable {tree : FileTree} {path : Path} {value : Value} {fields : Fields}

/-!
# Files
-/

/-- The name that a file is known by, or else its path. -/
def fileName (fields : Fields) : Value :=
  (Value.field? fields "name").getD ((Value.field? fields "path").getD (.text ""))

/-- There is a source that is a text, or else a path that is one. -/
def IsLocated (fields : Fields) : Prop :=
  (∃ source, Value.field? fields "source" = some (.text source)) ∨
    Value.field? fields "source" = none ∧
      ∃ path, Value.field? fields "path" = some (.scalar (.text path))

/-- What a file should be: a table with a source and a name. -/
def IsFile (value : Value) : Prop :=
  ∃ fields name, value = .table fields ∧ IsLocated fields ∧ fileName fields = .scalar name

/-- What is wrong with a file without being reported. -/
inductive FileCrashes : Value → Prop
  | noTable {value : Value} : (∀ fields, value ≠ .table fields) → FileCrashes value
  | source {fields : Fields} {source : Value} :
      Value.field? fields "source" = some source → source.text? = none →
        FileCrashes (.table fields)
  | path {fields : Fields} {path : Value} :
      Value.field? fields "source" = none → Value.field? fields "path" = some path →
        path.isText = false → FileCrashes (.table fields)
  | name {fields : Fields} :
      IsLocated fields → (∀ name, fileName fields ≠ .scalar name) → FileCrashes (.table fields)

/-- Only a text that is whole has a text. -/
theorem eq_text_of_text? {text : String} (h : value.text? = some text) : value = .text text := by
  unfold Value.text? at h
  split at h
  · rename_i units
    cases units with
    | whole found =>
        cases h
        rfl
    | broken units => cases h
  · cases h

theorem exists_text_of_isText (h : value.isText = true) : ∃ text, value = .scalar (.text text) := by
  unfold Value.isText at h
  split at h
  · exact ⟨_, rfl⟩
  · cases h

/-- What a file can be: as it should be, without a source and a path, or wrong in another way. -/
theorem isFile_or_crashes (value : Value) :
    IsFile value ∨ FileCrashes value ∨
      ∃ fields, value = .table fields ∧ Value.field? fields "source" = none ∧
        Value.field? fields "path" = none := by
  cases value with
  | scalar s => exact Or.inr (Or.inl (.noTable fun _ same => nomatch same))
  | list items => exact Or.inr (Or.inl (.noTable fun _ same => nomatch same))
  | table fields =>
      have named : IsLocated fields → IsFile (.table fields) ∨ FileCrashes (.table fields) := by
        intro located
        cases found : fileName fields with
        | scalar name => exact Or.inl ⟨fields, name, rfl, located, found⟩
        | list items => exact Or.inr (.name located fun _ same => nomatch found.symm.trans same)
        | table others => exact Or.inr (.name located fun _ same => nomatch found.symm.trans same)
      cases source : Value.field? fields "source" with
      | some given =>
          cases text : given.text? with
          | none => exact Or.inr (Or.inl (.source source text))
          | some found =>
              have located : IsLocated fields := by
                rw [eq_text_of_text? text] at source
                exact Or.inl ⟨found, source⟩
              rw [← or_assoc]
              exact Or.inl (named located)
      | none =>
          cases path : Value.field? fields "path" with
          | none => exact Or.inr (Or.inr ⟨fields, rfl, source, path⟩)
          | some given =>
              cases text : given.isText with
              | false => exact Or.inr (Or.inl (.path source path text))
              | true =>
                  rcases exists_text_of_isText text with ⟨found, rfl⟩
                  rw [← or_assoc]
                  exact Or.inl (named (Or.inr ⟨source, found, path⟩))

/-- The path that a file is read from, if it has no source of its own. -/
def pathOf? (document : Path) : Value → Option Path
  | .table fields =>
      match Value.field? fields "source", Value.field? fields "path" with
      | none, some (.scalar (.text path)) => some (document.parent.join (Path.ofText path))
      | _, _ => none
  | _ => none

/-- The text of the file can be read, if it is to be. -/
def IsReadable (tree : FileTree) (document : Path) (value : Value) : Prop :=
  ∀ path, pathOf? document value = some path → ∃ text, readText tree path = .ok text

section File

variable (readable : IsReadable tree path value)

theorem IsLocated.exists_readSource (located : IsLocated fields)
    (readable : IsReadable tree path (.table fields)) (name : Value) :
    ∃ source, readSource tree path fields name = .ok source := by
  rcases located with ⟨source, given⟩ | ⟨none, file, given⟩
  · refine ⟨source, ?_⟩
    rw [readSource, given]
    rfl
  · have asked : pathOf? path (.table fields) = some (path.parent.join (Path.ofText file)) := by
      rw [pathOf?, none, given]
    rcases readable _ asked with ⟨text, read⟩
    refine ⟨String.ofList text, ?_⟩
    simp only [readSource, none, given, read]
    rfl

theorem readSource_of_source (tree : FileTree) (path : Path) {source : Value}
    (given : Value.field? fields "source" = some source) (noText : source.text? = none)
    (name : Value) :
    ∃ found, readSource tree path fields name = fault found := by
  rw [readSource, given]
  split
  · rename_i same
    cases same
    cases noText
  · exact ⟨_, rfl⟩
  · exact ⟨_, rfl⟩
  · rename_i absent
    cases absent

theorem readSource_of_path {file : Value} (none : Value.field? fields "source" = none)
    (given : Value.field? fields "path" = some file) (noText : file.isText = false) (name : Value) :
    readSource tree path fields name = fault .wrongKind := by
  rw [readSource, none, given]
  simp only
  split
  · rename_i same
    cases same
    cases noText
  · rfl
  · rename_i absent
    cases absent

theorem readFile_table (tree : FileTree) (path : Path) (fields : Fields) :
    readFile tree path (.table fields) = (do
      let source ← readSource tree path fields (fileName fields)
      match fileName fields with
      | .scalar known => return (known, { name := fileName fields, source })
      | _ => fault .wrongKind) := rfl

include readable

theorem IsFile.exists_readFile (h : IsFile value) :
    ∃ file, readFile tree path value = .ok file := by
  rcases h with ⟨fields, name, rfl, located, named⟩
  rcases located.exists_readSource readable (fileName fields) with ⟨source, read⟩
  refine ⟨(name, { name := fileName fields, source }), ?_⟩
  rw [readFile_table, read, named]
  rfl

theorem FileCrashes.exists_fault (h : FileCrashes value) :
    ∃ found, readFile tree path value = fault found := by
  cases h with
  | noTable other =>
      cases value with
      | scalar s => exact ⟨_, rfl⟩
      | list items => exact ⟨_, rfl⟩
      | table fields => exact absurd rfl (other fields)
  | @source fields source given text =>
      rcases readSource_of_source tree path given text (fileName fields) with ⟨found, stopped⟩
      refine ⟨found, ?_⟩
      rw [readFile_table, stopped]
      rfl
  | @path fields file none given text =>
      refine ⟨.wrongKind, ?_⟩
      rw [readFile_table, readSource_of_path none given text]
      rfl
  | @name fields located other =>
      rcases located.exists_readSource readable (fileName fields) with ⟨source, read⟩
      refine ⟨.wrongKind, ?_⟩
      rw [readFile_table, read]
      cases named : fileName fields with
      | scalar name => exact absurd named (other name)
      | list items => rfl
      | table others => rfl

/-- A file is read, or it is reported, or it ends the reading in a fault. -/
theorem readFile_outcome :
    IsFile value ∧ (∃ file, readFile tree path value = .ok file) ∨
      FileCrashes value ∧ (∃ found, readFile tree path value = fault found) ∨
      ∃ error, readFile tree path value = report error := by
  rcases isFile_or_crashes value with good | crash | ⟨fields, rfl, noSource, noPath⟩
  · exact Or.inl ⟨good, good.exists_readFile readable⟩
  · exact Or.inr (Or.inl ⟨crash, crash.exists_fault readable⟩)
  · refine Or.inr (Or.inr ⟨.fileWithoutSource (fileName fields), ?_⟩)
    rw [readFile_table, readSource, noSource]
    simp only [noPath]
    rfl

theorem exists_readFile_iff : (∃ file, readFile tree path value = .ok file) ↔ IsFile value := by
  constructor
  · rintro ⟨file, read⟩
    rcases readFile_outcome readable with ⟨good, _⟩ | ⟨_, found, stopped⟩ | ⟨error, refused⟩
    · exact good
    · cases read.symm.trans stopped
    · cases read.symm.trans refused
  · intro good
    exact good.exists_readFile readable

theorem exists_fault_iff :
    (∃ found, readFile tree path value = fault found) ↔ FileCrashes value := by
  constructor
  · rintro ⟨found, stopped⟩
    rcases readFile_outcome readable with ⟨_, file, read⟩ | ⟨crash, _⟩ | ⟨error, refused⟩
    · cases stopped.symm.trans read
    · exact crash
    · cases stopped.symm.trans refused
  · intro crash
    exact crash.exists_fault readable

end File

end Document
end SourceReport
