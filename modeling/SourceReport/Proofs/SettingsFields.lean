import SourceReport.Settings

/-!
# Fields of settings

A known field of a table is read as its value, and as its default where the table lacks it, unless
the value is one that the field may not have. All readers of fields have this one specification, and
they differ in what becomes of such a value.
-/

namespace SourceReport

theorem Value.text?_eq_some_iff {value : Value} {name : String} :
    value.text? = some name ↔ value = .text name := by
  constructor
  · intro h
    unfold text? at h
    split at h
    · rename_i t
      cases t with
      | whole s => rw [← Option.some.inj h, text]
      | broken units => cases h
    · cases h
  · rintro rfl
    rfl

theorem Count.read?_eq_some_iff {value : Value} {n : Nat} :
    read? value = some n ↔ value = .int n := by
  constructor
  · intro h
    unfold read? at h
    split at h
    · rename_i whole
      split at h
      · rename_i positive
        rw [← Option.some.inj h, Int.toNat_of_nonneg positive, Value.int]
      · cases h
    · cases h
  · rintro rfl
    rw [Value.int, read?, if_pos (Int.natCast_nonneg n), Int.toNat_natCast]

/-!
# Names
-/

/-- A name is read as what has it. -/
theorem find?_name_eq_some_iff {α : Type} {all : List α} {nameOf : α → String}
    (reads : ∀ one, (all.find? fun other => nameOf other = nameOf one) = some one)
    (name : String) (found : α) :
    (all.find? fun other => nameOf other = name) = some found ↔ nameOf found = name := by
  constructor
  · intro listed
    have this := List.find?_some listed
    exact of_decide_eq_true this
  · rintro rfl
    exact reads found

theorem DisplayStyle.ofName?_eq_some_iff (name : String) (style : DisplayStyle) :
    ofName? name = some style ↔ style.name = name :=
  find?_name_eq_some_iff (fun one => by cases one <;> rfl) name style

theorem GlyphSet.ofName?_eq_some_iff (name : String) (glyphSet : GlyphSet) :
    ofName? name = some glyphSet ↔ glyphSet.name = name :=
  find?_name_eq_some_iff (fun one => by cases one <;> rfl) name glyphSet

theorem ColorMode.ofName?_eq_some_iff (name : String) (color : ColorMode) :
    ofName? name = some color ↔ color.name = name :=
  find?_name_eq_some_iff (fun one => by cases one <;> rfl) name color

theorem EmitterKind.ofName?_eq_some_iff (name : String) (kind : EmitterKind) :
    ofName? name = some kind ↔ kind.name = name :=
  find?_name_eq_some_iff (fun one => by cases one <;> rfl) name kind

namespace Settings

/-!
# Fields
-/

namespace Issue

/-- The issues of all known fields, in the order in which they are told. -/
def all : List Issue :=
  [.displayStyle, .glyphSet] ++ Count.all.map .count ++ [.color, .emitter]

/-- The name of the field that an issue is about. -/
def fieldName : Issue → String
  | .displayStyle => "display_style"
  | .glyphSet => "chars"
  | .count which => which.name
  | .color => "color"
  | .emitter => "emitter"

example : all.map fieldName =
    ["display_style", "chars", "tab_width", "start_context_lines", "end_context_lines",
      "before_label_lines", "after_label_lines", "color", "emitter"] :=
  rfl

/-- The values that the field may have. -/
def Allows : Issue → Value → Prop
  | .displayStyle, value => ∃ style : DisplayStyle, value = .text style.name
  | .glyphSet, value => ∃ glyphSet : GlyphSet, value = .text glyphSet.name
  | .count _, value => ∃ n : Nat, value = .int n
  | .color, value => ∃ color : ColorMode, value = .text color.name
  | .emitter, value => ∃ kind : EmitterKind, value = .text kind.name

/-- The field is in the table, with a value that it may not have. -/
def IsRaised (fields : Fields) (issue : Issue) : Prop :=
  ∃ value, Value.field? fields issue.fieldName = some value ∧ ¬ issue.Allows value

/-- The field has to be the name of something. -/
def IsOfName : Issue → Prop
  | .count _ => False
  | _ => True

/-- The field has to be a name and is in the table with another value, which lies too deep to be
quoted. -/
def IsTooDeep (machine : Machine) (fields : Fields) (issue : Issue) : Prop :=
  ∃ value, Value.field? fields issue.fieldName = some value ∧ ¬ issue.Allows value ∧
    issue.IsOfName ∧ value.quoteFault? machine.depth = some .tooDeep

theorem IsTooDeep.isRaised {machine : Machine} {fields : Fields} {issue : Issue}
    (deep : issue.IsTooDeep machine fields) : issue.IsRaised fields := by
  rcases deep with ⟨value, present, refused, _⟩
  exact ⟨value, present, refused⟩

/-- What becomes of a value that the field may not have. -/
def refuse (machine : Machine) : Issue → Value → Refusal
  | .count which, _ => .issue (.count which)
  | issue, value => .ofName machine issue value

theorem refuse_eq_issue_or_fault (machine : Machine) (issue : Issue) (value : Value) :
    issue.refuse machine value = .issue issue ∨ issue.refuse machine value = .fault .tooDeep := by
  have named (issue : Issue) : Refusal.ofName machine issue value = .issue issue ∨
      Refusal.ofName machine issue value = .fault .tooDeep := by
    rw [Refusal.ofName]
    split
    · exact Or.inr rfl
    · exact Or.inl rfl
  cases issue with
  | count which => exact Or.inl rfl
  | _ => exact named _

theorem refuse_eq_fault_iff {machine : Machine} {issue : Issue} {value : Value} :
    issue.refuse machine value = .fault .tooDeep ↔
      issue.IsOfName ∧ value.quoteFault? machine.depth = some .tooDeep := by
  have named (issue : Issue) : Refusal.ofName machine issue value = .fault .tooDeep ↔
      value.quoteFault? machine.depth = some .tooDeep := by
    rw [Refusal.ofName]
    split <;> simp_all
  cases issue with
  | count which => simp [refuse, IsOfName]
  | _ => simp [refuse, IsOfName, named]

theorem mem_all (issue : Issue) : issue ∈ all := by
  cases issue with
  | displayStyle => decide
  | glyphSet => decide
  | count which => cases which <;> decide
  | color => decide
  | emitter => decide

end Issue

/-!
# Single fields
-/

/-- What is read of a table for one field: its value or else the default, unless the value is one
that it may not have. -/
structure Reads {α : Type} (machine : Machine) (issue : Issue) (fields : Fields)
    (shown : α → Option Value) (default : α) (result : Except Refusal α) : Prop where
  ok_iff : ∀ found, result = .ok found ↔
    shown found = (Value.field? fields issue.fieldName).or (shown default)
  error_iff : ∀ refusal, result = .error refusal ↔
    ∃ value, Value.field? fields issue.fieldName = some value ∧ ¬ issue.Allows value ∧
      issue.refuse machine value = refusal

variable {machine : Machine} {issue : Issue} {fields : Fields}

theorem Reads.exists_ok {α : Type} {shown : α → Option Value} {default : α}
    {result : Except Refusal α} (h : Reads machine issue fields shown default result)
    (fine : ¬ issue.IsRaised fields) : ∃ found, result = .ok found := by
  cases read : result with
  | ok found => exact ⟨found, rfl⟩
  | error refusal =>
      rcases (h.error_iff refusal).mp read with ⟨value, present, refused, _⟩
      exact absurd ⟨value, present, refused⟩ fine

/-- The answer for a field: the default without a value, or else what the value stands for. -/
def answer {α : Type} (read : Value → Option α) (default : α) (refuse : Value → Refusal)
    (value? : Option Value) : Except Refusal α :=
  value?.elim (.ok default) fun value => (read value).elim (.error (refuse value)) .ok

theorem reads_answer {α : Type} {read : Value → Option α} {shown : α → Option Value} {default : α}
    (read_iff : ∀ value found, read value = some found ↔ shown found = some value)
    (blank : ∀ found, shown found = none → found = default)
    (allows_iff : ∀ value, issue.Allows value ↔ ∃ found, shown found = some value) :
    Reads machine issue fields shown default
      (answer read default (issue.refuse machine) (Value.field? fields issue.fieldName)) := by
  cases present : Value.field? fields issue.fieldName with
  | none =>
      constructor
      · intro found
        rw [present, answer, Option.elim_none, Option.none_or, Except.ok.injEq]
        constructor
        · rintro rfl
          rfl
        · intro same
          -- A value that is shown like the default is read as both.
          cases value : shown found with
          | none => exact (blank found value).symm
          | some value =>
              have first := (read_iff _ _).mpr value
              rw [same] at value
              rw [(read_iff _ _).mpr value] at first
              exact Option.some.inj first
      · intro refusal
        rw [answer, Option.elim_none, present]
        simp
  | some value =>
      have refused : ¬ issue.Allows value ↔ read value = none := by
        simp only [allows_iff, ← read_iff, not_exists, Option.eq_none_iff_forall_ne_some]
      constructor
      · intro found
        rw [present, answer, Option.elim_some, Option.some_or, ← read_iff]
        cases read value with
        | none => simp
        | some other => simp
      · intro refusal
        rw [answer, Option.elim_some, present]
        simp only [Option.some.injEq, exists_eq_left', refused]
        cases read value with
        | none => simp
        | some other => simp

theorem named_eq_answer {α : Type} (machine : Machine) (fields : Fields)
    (ofName? : String → Option α) (default : α) (issue : Issue) (name : String) :
    named machine fields ofName? default issue name =
      answer (fun value => value.text?.bind ofName?) default (.ofName machine issue)
        (Value.field? fields name) := by
  rw [named, answer]
  cases Value.field? fields name with
  | none => rfl
  | some value =>
      rw [Option.elim_some]
      dsimp only
      cases value.text?.bind ofName? with
      | none => rfl
      | some found => rfl

theorem count_eq_answer (machine : Machine) (fields : Fields) (which : Count) :
    count fields which = answer Count.read? (which.get {})
      ((Issue.count which).refuse machine) (Value.field? fields which.name) := by
  rw [count, answer]
  cases Value.field? fields which.name with
  | none => rfl
  | some value =>
      rw [Option.elim_some]
      dsimp only
      cases Count.read? value with
      | none => rfl
      | some n => rfl

theorem text?_bind_eq_some_iff {α : Type} {ofName? : String → Option α} {nameOf : α → String}
    (reads : ∀ name found, ofName? name = some found ↔ nameOf found = name) (value : Value)
    (found : α) :
    value.text?.bind ofName? = some found ↔ some (.text (nameOf found)) = some value := by
  simp only [Option.bind_eq_some_iff, Value.text?_eq_some_iff, reads, Option.some.injEq]
  constructor
  · rintro ⟨name, rfl, rfl⟩
    rfl
  · rintro rfl
    exact ⟨_, rfl, rfl⟩

/-- A field that has to be the name of something. -/
theorem reads_named {α : Type} {ofName? : String → Option α} {nameOf : α → String} (default : α)
    (reads : ∀ name found, ofName? name = some found ↔ nameOf found = name)
    (allows_iff : ∀ value, issue.Allows value ↔ ∃ found, value = .text (nameOf found))
    (quoted : issue.refuse machine = .ofName machine issue) :
    Reads machine issue fields (fun found => some (.text (nameOf found))) default
      (named machine fields ofName? default issue issue.fieldName) := by
  rw [named_eq_answer, ← quoted]
  apply reads_answer (text?_bind_eq_some_iff reads)
  · intro _ none
    cases none
  · intro value
    simp only [allows_iff, Option.some.injEq, eq_comm (a := value)]

variable (machine fields)

theorem reads_displayStyle :
    Reads machine .displayStyle fields (fun style => some (.text style.name)) .rich
      (displayStyle machine fields) :=
  reads_named .rich DisplayStyle.ofName?_eq_some_iff (fun _ => Iff.rfl) rfl

theorem reads_glyphSetOf :
    Reads machine .glyphSet fields (fun glyphSet => some (.text glyphSet.name)) .boxDrawing
      (glyphSetOf machine fields) :=
  reads_named .boxDrawing GlyphSet.ofName?_eq_some_iff (fun _ => Iff.rfl) rfl

theorem reads_colorOf :
    Reads machine .color fields (fun color => some (.text color.name)) .auto
      (colorOf machine fields) :=
  reads_named .auto ColorMode.ofName?_eq_some_iff (fun _ => Iff.rfl) rfl

theorem reads_emitterOf :
    Reads machine .emitter fields (fun emitter => emitter.map fun kind => .text kind.name) none
      (emitterOf machine fields) := by
  have name : Issue.emitter.fieldName = "emitter" := rfl
  have quoted : Issue.emitter.refuse machine = .ofName machine .emitter := rfl
  rw [emitterOf, named_eq_answer, ← name, ← quoted]
  apply reads_answer
  · intro value found
    have known := text?_bind_eq_some_iff EmitterKind.ofName?_eq_some_iff value
    have mapped : (value.text?.bind fun name => (EmitterKind.ofName? name).map some) =
        (value.text?.bind EmitterKind.ofName?).map some := (Option.map_bind).symm
    rw [mapped, Option.map_eq_some_iff]
    cases found with
    | none =>
        constructor
        · rintro ⟨_, _, wrong⟩
          cases wrong
        · intro wrong
          cases wrong
    | some kind => simp only [Option.map_some, Option.some.injEq, exists_eq_right, known]
  · exact fun _ none => Option.map_eq_none_iff.mp none
  · intro value
    simp only [Issue.Allows, Option.map_eq_some_iff]
    constructor
    · rintro ⟨kind, rfl⟩
      exact ⟨some kind, kind, rfl, rfl⟩
    · rintro ⟨_, kind, rfl, text⟩
      exact ⟨kind, text.symm⟩

theorem reads_count (which : Count) :
    Reads machine (.count which) fields (fun n : Nat => some (.int n)) (which.get {})
      (count fields which) := by
  have name : (Issue.count which).fieldName = which.name := rfl
  rw [count_eq_answer machine, ← name]
  apply reads_answer
  · intro value n
    rw [Count.read?_eq_some_iff, Option.some.injEq, eq_comm]
  · intro _ none
    cases none
  · intro value
    simp only [Issue.Allows, Option.some.injEq, eq_comm (a := value)]

end Settings
end SourceReport
