import SourceReport.Proofs.Histories

/-!
# Providers

A report reads its files through a provider. One provider keeps the encodings of its sources, one
derives all that it can and encodes a source whenever its bytes are asked for, and one offers no
encodings at all. Whatever was done to the base behind them, they answer as a base that is built at
once, as long as every file was last given a text that has an encoding.
-/

namespace SourceReport

/-- Seven lookups, and perhaps one for the encodings of the sources. -/
structure Provider where
  name : Scalar → Except Failure String
  text : Scalar → Except Failure Text
  lineIndex : Scalar → Int → Except Failure Nat
  lineNumber : Scalar → Int → Int
  columnNumber : Scalar → Int → Int → Except Failure Int
  lineRange : Scalar → Int → Except Failure (Int × Int)
  location : Scalar → Int → Except Failure Location
  encoded? : Option (Scalar → Except Failure (List UInt8))

namespace Provider

/-- The bytes of a source, encoded here if the provider has no encodings. -/
def bytes (provider : Provider) : Scalar → Except Failure (List UInt8) :=
  match provider.encoded? with
  | some encoded => encoded
  | none => fun id => do
      match ← provider.text id with
      | .whole source => return Utf8.encode source.toList
      | .broken _ => .error .undecodable

/-- The provider whose columns and locations follow from the other lookups, with its lines numbered
from `first` on. -/
def derived (name : Scalar → Except Failure String) (text : Scalar → Except Failure Text)
    (lineIndex : Scalar → Int → Except Failure Nat)
    (lineRange : Scalar → Int → Except Failure (Int × Int))
    (encoded : Scalar → Except Failure (List UInt8)) (first : Int) : Provider :=
  let columnNumber id line offset : Except Failure Int := do
    let range ← lineRange id line
    let bytes ← encoded id
    return Slice.columnIndex bytes range offset + 1
  { name, text, lineIndex, lineRange, columnNumber
    lineNumber := fun _ line => line + first
    location := fun id offset => do
      let line ← lineIndex id offset
      let column ← columnNumber id line offset
      return { lineNumber := line + first, columnNumber := column }
    encoded? := some encoded }

/-- Everything that a report asks the provider is answered as by the lookups. -/
structure Answers (provider : Provider) (lookup : Lookup) : Prop where
  name_eq : provider.name = lookup.name
  text_eq : provider.text = lookup.text
  bytes_eq : provider.bytes = lookup.encoded
  lineIndex_eq : provider.lineIndex = lookup.lineIndex
  lineRange_eq : provider.lineRange = lookup.lineRange
  lineNumber_eq : ∀ id line, provider.lineNumber id line = lookup.lineNumber line
  columnNumber_eq : provider.columnNumber = lookup.columnNumber
  location_eq : provider.location = lookup.location

/-- A provider answers as no more than one collection of lookups. -/
theorem Answers.unique {provider : Provider} {lookup other : Lookup}
    (h : provider.Answers lookup) (again : provider.Answers other) : lookup = other := by
  have first : lookup.firstNumber = other.firstNumber := by
    have number := (h.lineNumber_eq .null 0).symm.trans (again.lineNumber_eq .null 0)
    simpa only [Lookup.lineNumber, Int.add_zero] using number
  cases lookup with
  | mk name text encoded lineIndex lineRange firstNumber =>
      cases h.name_eq.symm.trans again.name_eq
      cases h.text_eq.symm.trans again.text_eq
      cases h.bytes_eq.symm.trans again.bytes_eq
      cases h.lineIndex_eq.symm.trans again.lineIndex_eq
      cases h.lineRange_eq.symm.trans again.lineRange_eq
      cases first
      rfl

/-- The provider answers as the lookups, and whatever is planned and drawn of its answers is what is
planned and drawn of theirs. -/
structure Serves (provider : Provider) (lookup : Lookup) : Prop where
  answers : provider.Answers lookup
  ofDiagnostic_eq : ∀ other, provider.Answers other → ∀ options diagnostic,
    Plan.ofDiagnostic other options diagnostic = Plan.ofDiagnostic lookup options diagnostic
  emitAll_eq : ∀ other, provider.Answers other → ∀ options theme emitter diagnostics machine,
    Overflow.emitAll other options theme emitter diagnostics machine =
      Overflow.emitAll lookup options theme emitter diagnostics machine

theorem Answers.serves {provider : Provider} {lookup : Lookup} (h : provider.Answers lookup) :
    provider.Serves lookup where
  answers := h
  ofDiagnostic_eq other again _ _ := by rw [again.unique h]
  emitAll_eq other again _ _ _ _ _ := by rw [again.unique h]

/-- What is derived from the lookups of a base are its own columns and locations. -/
theorem answers_derived (base : FileBase) (first : Int) :
    (derived base.lookup.name base.lookup.text base.lookup.lineIndex base.lookup.lineRange
      base.lookup.encoded first).Answers (base.numberedFrom first) where
  name_eq := rfl
  text_eq := rfl
  bytes_eq := rfl
  lineIndex_eq := rfl
  lineRange_eq := rfl
  lineNumber_eq _ line := Int.add_comm line first
  columnNumber_eq := rfl
  location_eq := by
    funext id offset
    have number : ∀ line : Nat,
        (line : Int) + first = (base.numberedFrom first).lineNumber line :=
      fun line => Int.add_comm line first
    simp only [derived, Lookup.location, number]
    rfl

end Provider

namespace FileBase

section Bases

variable (base : FileBase) (first : Int)

/-- The base itself, with the encodings that it keeps and its lines numbered from `first` on. -/
def files : Provider :=
  .derived base.lookup.name base.lookup.text base.lookup.lineIndex base.lookup.lineRange
    base.lookup.encoded first

/-- The seven lookups of the base, without its encodings. -/
def bare : Provider :=
  { base.files first with encoded? := none }

/-- Only four lookups are those of the base. Every encoding is computed, and lines are numbered
from one on, however the base numbers them. -/
def delegated : Provider :=
  .derived base.lookup.name base.lookup.text base.lookup.lineIndex base.lookup.lineRange
    base.lookup.withoutEncodings.encoded 1

variable {base}

/-- The encodings that a base keeps are those of its sources, if these have encodings. -/
theorem withoutEncodings_lookup (whole : ∀ record ∈ base.records, record.unencoded = none) :
    base.lookup.withoutEncodings = base.lookup := by
  have encodings : base.lookup.withoutEncodings.encoded = base.lookup.encoded := by
    funext id
    simp only [Lookup.withoutEncodings, lookup]
    cases found : base.get id with
    | error failure => rfl
    | ok record =>
        rcases get_eq_ok_iff.mp found with ⟨place, _, listed⟩
        have kept := whole record (List.mem_of_getElem? listed)
        simp only [Except.map, FileRecord.text, kept]
        exact congrArg Except.ok record.encoded_eq.symm
  have same : base.lookup.withoutEncodings =
      { base.lookup with encoded := base.lookup.withoutEncodings.encoded } := rfl
  rw [same, encodings]

theorem answers_files : (base.files first).Answers (base.numberedFrom first) :=
  Provider.answers_derived base first

theorem answers_bare (whole : ∀ record ∈ base.records, record.unencoded = none) :
    (base.bare first).Answers (base.numberedFrom first) :=
  { answers_files first with
    bytes_eq := congrArg Lookup.encoded (withoutEncodings_lookup whole) }

theorem answers_delegated (whole : ∀ record ∈ base.records, record.unencoded = none) :
    base.delegated.Answers base.lookup := by
  rw [delegated, withoutEncodings_lookup whole]
  exact Provider.answers_derived base 1

/-- Files that are added at once have no text without an encoding. -/
theorem unencoded_of_mem_ofSources {sources : List (String × String)} {record : FileRecord}
    (listed : record ∈ (ofSources sources).records) : record.unencoded = none := by
  rw [records_ofSources, List.mem_map] at listed
  rcases listed with ⟨file, _, rfl⟩
  rfl

end Bases

/-- Whatever was added and updated, each file has the text that was written to it last, and keeps
the encoding and the line starts of the source that was encoded last. If these are the same for
every file, the base is the one that is built at once, and however it is read, it is planned and
drawn as that one. -/
theorem caches_follow_changes (changes : List Change) :
    (empty.perform changes).2 = History.answers 0 changes ∧
      (empty.perform changes).2.filterMap Change.added? =
        List.range (History.names changes).length ∧
      (∀ (place : Nat) name, (History.names changes)[place]? = some name →
        ∃ record, (History.base changes).Holds (.int place) record ∧ record.name = name ∧
          (History.texts place 0 changes).getLast? = some record.text ∧
          (History.sources (History.texts place 0 changes)).getLast? = some record.source ∧
          record.encoded = Utf8.encode record.source.toList ∧
          record.lineStarts = Lines.starts record.encoded) ∧
      (∀ id source (place : Nat), id.whole? ≠ some (place : Int) →
        ((History.base changes).change (.update id source)).1.records[place]? =
          (History.base changes).records[place]?) ∧
      (∀ id source, (∀ record, ¬ (History.base changes).Holds id record) →
        (History.base changes).change (.update id source) =
          (History.base changes, .error (Failure.fileMissing id).raised)) ∧
      (History.IsEncoded changes →
        History.base changes = History.fresh changes ∧
          (∀ first,
            ((History.base changes).files first).Serves
                ((History.fresh changes).numberedFrom first) ∧
              ((History.base changes).bare first).Serves
                ((History.fresh changes).numberedFrom first)) ∧
          (History.base changes).delegated.Serves (History.fresh changes).lookup) := by
  refine ⟨empty.answers_perform changes, ?_, ?_, ?_, ?_, ?_⟩
  · rw [empty.answers_perform changes, History.filterMap_added?_answers, List.range_eq_range']
    rfl
  · intro place name named
    rcases History.exists_record named with ⟨record, held, same, text, source⟩
    exact ⟨record, held, same, text, source, record.encoded_eq, record.lineStarts_eq⟩
  · intro id source place other
    exact getElem?_change_update _ other source
  · intro id source missing
    exact change_update_of_not_holds _ missing source
  · intro encoded
    have same := History.base_eq_fresh encoded
    have whole : ∀ record ∈ (History.fresh changes).records, record.unencoded = none :=
      fun record listed => unencoded_of_mem_ofSources listed
    rw [same]
    exact ⟨rfl, fun first => ⟨(answers_files first).serves, (answers_bare first whole).serves⟩,
      (answers_delegated whole).serves⟩

/-- A text without an encoding is forgotten with the next text that has one. -/
theorem caches_follow_changes_letters :
    let changes : List Change := [.add "letters" (.whole "a\n"),
      .update (.int 0) (.broken [.surrogate 0xD800]), .update (.bool false) (.whole "b\n\n")]
    History.IsEncoded changes ∧ History.base changes = .ofSources [("letters", "b\n\n")] ∧
      (History.base changes).delegated.Serves (ofSources [("letters", "b\n\n")]).lookup := by
  intro changes
  have encoded : History.IsEncoded changes := by
    intro place text last
    cases place with
    | zero =>
        cases last
        rfl
    | succ place =>
        simp [changes, History.texts, Change.written?, Change.count, Scalar.whole?] at last
  rcases (caches_follow_changes changes).2.2.2.2.2 encoded with ⟨same, _, served⟩
  exact ⟨encoded, same, served⟩

/-- A text without an encoding stands beside the encoding of the source before it. Lines that a base
numbers from ten on are numbered from one on where only four lookups are those of the base. -/
theorem caches_stale_letters :
    (∃ record, (History.base [.add "letters" (.whole "a\n"),
        .update (.int 0) (.broken [.surrogate 0xD800])]).Holds (.int 0) record ∧
      record.text = .broken [.surrogate 0xD800] ∧
      record.encoded = Utf8.encode "a\n".toList ∧ record.lineStarts = [0, 2]) ∧
    ((History.base [.add "letters" (.whole "a\n")]).files 10).lineNumber (.int 0) 0 = 10 ∧
      (History.base [.add "letters" (.whole "a\n")]).delegated.lineNumber (.int 0) 0 = 1 := by
  exact ⟨⟨(FileRecord.of "letters" "a\n").withSource (.broken [.surrogate 0xD800]),
    ⟨0, rfl, rfl⟩, rfl, rfl, by decide⟩, by decide, by decide⟩

end FileBase
end SourceReport
