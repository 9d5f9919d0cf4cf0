import Mathlib.Data.List.Basic
import SourceReport.Overflow
import SourceReport.Proofs.Updates

/-!
# Histories

Files are added to a base and updated, one change after another. What a base keeps beside its
sources, their encodings and their line starts, belongs to the sources that were encoded last. If
every file was last given a source that has an encoding, the base is the one that is built from the
last names and sources at once.
-/

namespace SourceReport

/-!
# Changes
-/

inductive Change where
  | add (name : String) (source : Text)
  | update (id : Scalar) (source : Text)

/-- A value that is there once a text is encoded. -/
def Text.afterEncoding {α : Type} (text : Text) (value : α) : Except Raised α :=
  match text with
  | .whole _ => .ok value
  | .broken _ => .error (.fault .unencodable)

namespace FileBase

/-- A change, and how it ends. A file is only added after its source was encoded, but an update has
written its source by then. -/
def change (base : FileBase) : Change → FileBase × Except Raised (Option Nat)
  | .add name (.whole source) => (base.add name source, .ok (some base.records.length))
  | .add _ (.broken _) => (base, .error (.fault .unencodable))
  | .update id source =>
      match base.update id source with
      | .ok next => (next, source.afterEncoding none)
      | .error failure => (base, .error failure.raised)

def perform (base : FileBase) : List Change → FileBase × List (Except Raised (Option Nat))
  | [] => (base, [])
  | change :: rest =>
      let (next, answer) := base.change change
      let (last, answers) := next.perform rest
      (last, answer :: answers)

end FileBase

/-!
# What a history says

The names, the texts and the answers can be read off a history without a base.
-/

namespace Change

/-- The name of the file that a change adds. -/
def name? : Change → Option String
  | add name (.whole _) => some name
  | add _ (.broken _) => none
  | update _ _ => none

/-- How many files there are after a change. -/
def count (files : Nat) : Change → Nat
  | add _ (.whole _) => files + 1
  | add _ (.broken _) => files
  | update _ _ => files

/-- The text that a change writes to the file at a place. -/
def written? (files place : Nat) : Change → Option Text
  | add _ (.whole source) => if place = files then some (.whole source) else none
  | add _ (.broken _) => none
  | update id source =>
      if id.whole? = some (place : Int) ∧ place < files then some source else none

def answer (files : Nat) : Change → Except Raised (Option Nat)
  | add _ source => source.afterEncoding (some files)
  | update id source =>
      if ∃ place < files, id.whole? = some (place : Int) then source.afterEncoding none
      else .error (Failure.fileMissing id).raised

/-- The id that a change answers with, if it adds a file. -/
def added? : Except Raised (Option Nat) → Option Nat
  | .ok id => id
  | .error _ => none

end Change

namespace History

def names (changes : List Change) : List String :=
  changes.filterMap Change.name?

/-- The texts that are written to the file at a place, one after another. -/
def texts (place : Nat) : Nat → List Change → List Text
  | _, [] => []
  | files, change :: rest =>
      (change.written? files place).toList ++ texts place (change.count files) rest

/-- The sources among some texts that have an encoding. -/
def sources (texts : List Text) : List String :=
  texts.filterMap Text.string?

def answers : Nat → List Change → List (Except Raised (Option Nat))
  | _, [] => []
  | files, change :: rest => change.answer files :: answers (change.count files) rest

/-- The text that was written last to each file has an encoding. -/
def IsEncoded (changes : List Change) : Prop :=
  ∀ place text, (texts place 0 changes).getLast? = some text → text.string?.isSome

theorem sources_append (before after : List Text) :
    sources (before ++ after) = sources before ++ sources after :=
  List.filterMap_append

/-- The names of the files that a history adds, and the last sources that were encoded. -/
def files (changes : List Change) : List (String × String) :=
  (names changes).mapIdx fun place name =>
    (name, (sources (texts place 0 changes)).getLast?.getD "")

end History

namespace FileRecord

/-!
# Records that are written to
-/

variable (record : FileRecord)

theorem text_withSource (source : Text) : (record.withSource source).text = source := by
  cases source <;> rfl

theorem source_withSource (source : Text) :
    (record.withSource source).source = source.string?.getD record.source := by
  cases source <;> rfl

theorem name_withSource (source : Text) : (record.withSource source).name = record.name := by
  cases source <;> rfl

/-- A record whose text was encoded is the one that is made of its name and that text. -/
theorem of_name_source {record : FileRecord} (whole : record.text.string?.isSome) :
    FileRecord.of record.name record.source = record := by
  cases record with
  | mk name source encoded lineStarts encoded_eq lineStarts_eq unencoded =>
      subst encoded_eq lineStarts_eq
      cases unencoded with
      | none => rfl
      | some units => cases whole

end FileRecord

namespace FileBase

/-!
# One change
-/

section Change

variable (base : FileBase)

/-- An update writes to the record at the place that its id counts as, or it fails. -/
theorem change_update (id : Scalar) (source : Text) :
    (∃ place : Nat, id.whole? = some (place : Int) ∧ place < base.records.length ∧
      base.change (.update id source) =
        (⟨base.records.modify place fun record => record.withSource source⟩,
          source.afterEncoding none)) ∨
    (∀ place : Nat, id.whole? = some (place : Int) → base.records.length ≤ place) ∧
      base.change (.update id source) = (base, .error (Failure.fileMissing id).raised) := by
  by_cases known : ∃ place : Nat, id.whole? = some (place : Int) ∧ place < base.records.length
  · rcases known with ⟨place, number, inside⟩
    refine Or.inl ⟨place, number, inside, ?_⟩
    rw [change, update_of_place number inside]
  · have missing : ∀ place : Nat, id.whole? = some (place : Int) →
        base.records.length ≤ place := by
      intro place number
      by_contra inside
      exact known ⟨place, number, Nat.lt_of_not_le inside⟩
    refine Or.inr ⟨missing, ?_⟩
    rw [change, update_of_no_place missing]

/-- An update of an unknown id changes nothing. -/
theorem change_update_of_not_holds {id : Scalar} (missing : ∀ record, ¬ base.Holds id record)
    (source : Text) :
    base.change (.update id source) = (base, .error (Failure.fileMissing id).raised) := by
  rcases base.change_update id source with ⟨place, number, inside, _⟩ | ⟨_, failed⟩
  · have held : base.Holds id base.records[place] :=
      ⟨place, number, List.getElem?_eq_getElem inside⟩
    exact absurd held (missing _)
  · exact failed

variable (next : Change)

theorem length_change :
    (base.change next).1.records.length = next.count base.records.length := by
  cases next with
  | add name source =>
      cases source with
      | whole source => exact List.length_append
      | broken units => rfl
  | update id source =>
      rcases base.change_update id source with ⟨place, _, _, written⟩ | ⟨_, failed⟩
      · rw [written]
        exact List.length_modify _ _ _
      · rw [failed]
        rfl

theorem answer_change : (base.change next).2 = next.answer base.records.length := by
  cases next with
  | add name source => cases source <;> rfl
  | update id source =>
      rcases base.change_update id source with ⟨place, number, inside, written⟩ | ⟨missing, failed⟩
      · rw [written, Change.answer, if_pos ⟨place, inside, number⟩]
      · rw [failed, Change.answer, if_neg]
        rintro ⟨place, inside, number⟩
        exact Nat.not_le_of_lt inside (missing place number)

theorem map_name_change :
    (base.change next).1.records.map (·.name) =
      base.records.map (·.name) ++ next.name?.toList := by
  cases next with
  | add name source =>
      cases source with
      | whole source => exact List.map_append
      | broken units => exact (List.append_nil _).symm
  | update id source =>
      rw [Change.name?, Option.toList_none, List.append_nil]
      rcases base.change_update id source with ⟨place, _, _, written⟩ | ⟨_, failed⟩
      · rw [written]
        apply List.ext_getElem?
        intro i
        rw [List.getElem?_map, List.getElem?_map, List.getElem?_modify, Option.map_eq_map,
          Option.map_map]
        congr 1
        funext record
        by_cases here : place = i
        · simp only [Function.comp_apply, if_pos here]
          exact record.name_withSource source
        · simp only [Function.comp_apply, if_neg here]
      · rw [failed]

/-- The other records are untouched by an update. -/
theorem getElem?_change_update {id : Scalar} {place : Nat} (other : id.whole? ≠ some (place : Int))
    (source : Text) :
    (base.change (.update id source)).1.records[place]? = base.records[place]? := by
  rcases base.change_update id source with ⟨here, number, _, written⟩ | ⟨_, failed⟩
  · have apart : here ≠ place := by
      rintro rfl
      exact other number
    rw [written]
    exact List.getElem?_modify_ne _ _ apart
  · rw [failed]

variable {base next} {place : Nat}

theorem getElem?_change_of_written?_eq_none
    (kept : next.written? base.records.length place = none) :
    (base.change next).1.records[place]? = base.records[place]? := by
  cases next with
  | add name source =>
      cases source with
      | broken units => rfl
      | whole source =>
          have apart : place ≠ base.records.length := by
            intro here
            rw [Change.written?, if_pos here] at kept
            cases kept
          rw [change, add]
          rcases Nat.lt_or_gt_of_ne apart with inside | outside
          · exact List.getElem?_append_left inside
          · rw [List.getElem?_eq_none (Nat.le_of_lt outside), List.getElem?_eq_none]
            rw [List.length_append, List.length_singleton]
            exact outside
  | update id source =>
      by_cases here : id.whole? = some (place : Int)
      · rcases base.change_update id source with ⟨found, number, inside, _⟩ | ⟨_, failed⟩
        · have same : found = place := Int.ofNat_inj.mp (Option.some.inj (number.symm.trans here))
          subst same
          rw [Change.written?, if_pos ⟨number, inside⟩] at kept
          cases kept
        · rw [failed]
      · exact base.getElem?_change_update here source

/-- A text is written to a record. It was there before, unless the text has an encoding. -/
theorem exists_getElem?_change {source : Text}
    (written : next.written? base.records.length place = some source) :
    ∃ record, (base.change next).1.records[place]? = some (record.withSource source) ∧
      (source.string? = none → base.records[place]? = some record) := by
  cases next with
  | add name text =>
      cases text with
      | broken units => cases written
      | whole text =>
          rw [Change.written?] at written
          split at written
          · rename_i here
            cases written
            subst here
            refine ⟨.of name "", ?_, fun broken => absurd broken (Option.some_ne_none text)⟩
            rw [change, add, List.getElem?_concat_length]
            rfl
          · cases written
  | update id text =>
      rw [Change.written?] at written
      split at written
      · rename_i found
        cases written
        rcases found with ⟨number, inside⟩
        refine ⟨base.records[place], ?_, fun _ => List.getElem?_eq_getElem inside⟩
        rw [change, update_of_place number inside, List.getElem?_modify,
          List.getElem?_eq_getElem inside]
        simp only [if_true]
        rfl
      · cases written

theorem map_text_change :
    (base.change next).1.records[place]?.map (·.text) =
      (next.written? base.records.length place).or (base.records[place]?.map (·.text)) := by
  cases found : next.written? base.records.length place with
  | none => rw [getElem?_change_of_written?_eq_none found, Option.none_or]
  | some source =>
      rcases exists_getElem?_change found with ⟨record, written, _⟩
      rw [written, Option.map_some, record.text_withSource, Option.some_or]

theorem map_source_change :
    (base.change next).1.records[place]?.map (·.source) =
      ((next.written? base.records.length place).bind Text.string?).or
        (base.records[place]?.map (·.source)) := by
  cases found : next.written? base.records.length place with
  | none => rw [getElem?_change_of_written?_eq_none found, Option.bind_none, Option.none_or]
  | some source =>
      rcases exists_getElem?_change found with ⟨record, written, before⟩
      rw [written, Option.map_some, record.source_withSource, Option.bind_some]
      cases encoded : source.string? with
      | none =>
          rw [before encoded]
          rfl
      | some text => rfl

end Change

/-!
# A whole history
-/

variable (base : FileBase) (changes : List Change)

theorem answers_perform :
    (base.perform changes).2 = History.answers base.records.length changes := by
  induction changes generalizing base with
  | nil => rfl
  | cons next rest ih =>
      rw [perform, History.answers, ← base.answer_change next, ← base.length_change next, ← ih]

theorem map_name_perform :
    (base.perform changes).1.records.map (·.name) =
      base.records.map (·.name) ++ History.names changes := by
  induction changes generalizing base with
  | nil => exact (List.append_nil _).symm
  | cons next rest ih =>
      have tail := ih (base.change next).1
      rw [base.map_name_change next, List.append_assoc] at tail
      rw [perform, History.names, List.filterMap_cons]
      refine tail.trans ?_
      cases next.name? with
      | none => rfl
      | some name => rfl

theorem map_text_perform (place : Nat) :
    (base.perform changes).1.records[place]?.map (·.text) =
      (History.texts place base.records.length changes).getLast?.or
        (base.records[place]?.map (·.text)) := by
  induction changes generalizing base with
  | nil => rfl
  | cons next rest ih =>
      have tail := ih (base.change next).1
      rw [map_text_change, base.length_change next, ← Option.or_assoc] at tail
      refine tail.trans ?_
      rw [History.texts, List.getLast?_append]
      cases next.written? base.records.length place <;> rfl

theorem map_source_perform (place : Nat) :
    (base.perform changes).1.records[place]?.map (·.source) =
      (History.sources (History.texts place base.records.length changes)).getLast?.or
        (base.records[place]?.map (·.source)) := by
  induction changes generalizing base with
  | nil => rfl
  | cons next rest ih =>
      have tail := ih (base.change next).1
      rw [map_source_change, base.length_change next, ← Option.or_assoc] at tail
      refine tail.trans ?_
      rw [History.texts, History.sources_append, List.getLast?_append]
      cases next.written? base.records.length place with
      | none => rfl
      | some source => cases source <;> rfl

end FileBase

namespace History

/-- The base after a history. -/
def base (changes : List Change) : FileBase :=
  (FileBase.empty.perform changes).1

/-- The base that is built of the last names and sources at once. -/
def fresh (changes : List Change) : FileBase :=
  .ofSources (files changes)

variable {changes : List Change} {place : Nat} {record : FileRecord}

theorem map_name_base : (base changes).records.map (·.name) = names changes :=
  FileBase.empty.map_name_perform changes

/-- A record has the text that was written to it last. -/
theorem getLast?_texts (found : (base changes).records[place]? = some record) :
    (texts place 0 changes).getLast? = some record.text := by
  have text := FileBase.empty.map_text_perform changes place
  rw [← base, found] at text
  exact Option.or_none.symm.trans text.symm

/-- A record has the source that was encoded last, and what it keeps beside it belongs to that. -/
theorem getLast?_sources (found : (base changes).records[place]? = some record) :
    (sources (texts place 0 changes)).getLast? = some record.source := by
  have source := FileBase.empty.map_source_perform changes place
  rw [← base, found] at source
  exact Option.or_none.symm.trans source.symm

theorem getElem?_names (found : (base changes).records[place]? = some record) :
    (names changes)[place]? = some record.name := by
  rw [← map_name_base, List.getElem?_map, found, Option.map_some]

/-- Each file that was added has its record. -/
theorem exists_record {name : String} (named : (names changes)[place]? = some name) :
    ∃ record, (base changes).Holds (.int place) record ∧ record.name = name ∧
      (texts place 0 changes).getLast? = some record.text ∧
      (sources (texts place 0 changes)).getLast? = some record.source := by
  have listed := named
  rw [← map_name_base, List.getElem?_map, Option.map_eq_some_iff] at listed
  rcases listed with ⟨record, found, rfl⟩
  exact ⟨record, ⟨place, rfl, found⟩, rfl, getLast?_texts found, getLast?_sources found⟩

/-- If every file was last given a text with an encoding, the base is the one that is built of the
last names and sources at once. -/
theorem base_eq_fresh (encoded : IsEncoded changes) : base changes = fresh changes := by
  have records : (base changes).records = (fresh changes).records := by
    apply List.ext_getElem?
    intro place
    rw [fresh, FileBase.records_ofSources, files, List.getElem?_map, List.getElem?_mapIdx]
    cases found : (base changes).records[place]? with
    | none =>
        rw [← map_name_base, List.getElem?_map, found]
        rfl
    | some record =>
        have whole := encoded place record.text (getLast?_texts found)
        rw [getElem?_names found, getLast?_sources found]
        exact congrArg some (FileRecord.of_name_source whole).symm
  exact congrArg FileBase.mk records

/-- An id that is not known yet does not count later on. -/
example : files [.add "first" (.whole "a"), .update (.int 1) (.whole "b"),
    .add "second" (.whole "c"), .update (.bool true) (.whole "d"),
    .update (.int 0) (.broken [.surrogate 0xD800])] = [("first", "a"), ("second", "d")] := by
  decide

/-- The ids of the files that a history adds count up. -/
theorem filterMap_added?_answers (files : Nat) (changes : List Change) :
    (answers files changes).filterMap Change.added? = List.range' files (names changes).length := by
  induction changes generalizing files with
  | nil => rfl
  | cons next rest ih =>
      have tail := ih (next.count files)
      cases next with
      | add name source =>
          cases source with
          | whole source =>
              have added : Change.added? (Change.answer files (.add name (.whole source))) =
                  some files := rfl
              have named : names (.add name (.whole source) :: rest) = name :: names rest := rfl
              rw [answers, List.filterMap_cons_some added, tail, named, List.length_cons,
                List.range'_succ]
              rfl
          | broken units => exact tail
      | update id source =>
          have added : Change.added? (Change.answer files (.update id source)) = none := by
            rw [Change.answer]
            split
            · cases source <;> rfl
            · rfl
          have named : names (.update id source :: rest) = names rest := rfl
          rw [answers, List.filterMap_cons_none added, tail, named]
          rfl

end History
end SourceReport
