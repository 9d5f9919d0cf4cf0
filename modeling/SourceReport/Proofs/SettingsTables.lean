import SourceReport.Proofs.Readings
import SourceReport.Proofs.SettingsFields
import SourceReport.Settings.Load

/-!
# Tables of settings

A table is refused exactly if one of its known fields has a value that the field may not have, and
then each such field is told about once, in a fixed order. Otherwise the settings have the values of
the table and the defaults for what it lacks. Unknown fields count for nothing.
-/

namespace SourceReport

theorem Value.field?_filter {isKept : Text → Bool} {fields : Fields} {name : String}
    (kept : isKept (.whole name) = true) :
    field? (fields.filter fun field => isKept field.1) name = field? fields name := by
  induction fields with
  | nil => rfl
  | cons field rest ih =>
      rcases field with ⟨key, value⟩
      by_cases same : key = .whole name
      · subst same
        simp only [List.filter_cons, kept, if_true, field?]
      · rw [field?, if_neg same, ← ih, List.filter_cons]
        split
        · rw [field?, if_neg same]
        · rfl

/-- Options are accepted as they are. -/
theorem Options.ofRequest_request (options : Options) :
    ofRequest options.request = .ok options := by
  have style : DisplayStyle.ofName? options.displayStyle.name = some options.displayStyle :=
    (DisplayStyle.ofName?_eq_some_iff _ _).mpr rfl
  have counts : (Count.all.flatMap fun count =>
      options.request.counts.filter fun one => one.1 = count) = options.request.counts := rfl
  have read (n : Nat) : Count.read? (.int n) = some n := Count.read?_eq_some_iff.mpr rfl
  have named : Value.text? (.text options.displayStyle.name) = some options.displayStyle.name := rfl
  simp only [ofRequest, counts]
  simp only [request, named, Option.bind_some, style, Count.all, List.map_cons, List.map_nil,
    withCounts, read, Count.set, Count.get]
  rfl

/-!
# Quoted texts

A quoted text stands on one line.
-/

namespace Quoted

theorem newline_not_mem_toDigits (n : Nat) : '\n' ∉ Nat.toDigits 16 n := by
  have digit (d : Nat) : '\n' ∉ [d.digitChar] := by
    rw [List.mem_singleton]
    exact Ne.symm (Nat.digitChar_ne '\n' rfl)
  induction n using Nat.strongRecOn with
  | ind n ih =>
      rw [Nat.toDigits_eq_if (by decide)]
      split
      · exact digit n
      · next large =>
          rw [List.mem_append, not_or]
          exact ⟨ih (n / 16) (by omega), digit _⟩

theorem newline_not_mem_hex (width n : Nat) : '\n' ∉ hex width n := by
  rw [hex, List.mem_append, not_or]
  refine ⟨?_, newline_not_mem_toDigits n⟩
  intro member
  cases List.eq_of_mem_replicate member

theorem newline_not_mem_escapeCode (code : Nat) : '\n' ∉ escapeCode code := by
  unfold escapeCode
  split
  · simp [newline_not_mem_hex]
  · split
    · simp [newline_not_mem_hex]
    · simp [newline_not_mem_hex]

theorem newline_not_mem_escapeChar {mark : Char} (other : mark ≠ '\n') (c : Char) :
    '\n' ∉ escapeChar mark c := by
  by_cases newline : c = '\n'
  · have plain : ¬(c = mark ∨ c = '\\') := by
      rintro (rfl | rfl)
      · exact other newline
      · cases newline
    rw [escapeChar, if_neg plain, if_pos newline]
    decide
  · unfold escapeChar
    split
    · simp [Ne.symm newline]
    · split
      · decide
      · split
        · decide
        · split
          · simp [Ne.symm newline]
          · exact newline_not_mem_escapeCode c.toNat

theorem newline_not_mem_encode (text : List Char) : '\n' ∉ encode text := by
  have mark : markFor text ≠ '\n' := by
    unfold markFor
    split
    · decide
    · decide
  rw [encode, List.mem_cons, List.mem_append, List.mem_singleton, List.mem_flatMap]
  rintro (first | ⟨c, _, inside⟩ | last)
  · exact mark first.symm
  · exact newline_not_mem_escapeChar mark c inside
  · exact mark last.symm

end Quoted

theorem newline_not_mem_quoted (text : String) : '\n' ∉ (quoted text).toList := by
  rw [quoted, String.toList_ofList]
  exact Quoted.newline_not_mem_encode text.toList

namespace Settings

/-!
# Settings of a table
-/

/-- The value of a field in settings; an emitter may be missing. -/
def valueIn? (settings : Settings) : Issue → Option Value
  | .displayStyle => some (.text settings.options.displayStyle.name)
  | .glyphSet => some (.text settings.glyphSet.name)
  | .count which => some (.int (which.get settings.options))
  | .color => some (.text settings.color.name)
  | .emitter => settings.emitter.map fun kind => .text kind.name

/-- The settings have the values of a table, and the defaults for the fields that it lacks. -/
structure IsMadeOf (settings : Settings) (path : Option String) (fields : Fields) : Prop where
  path_eq : settings.path = path
  glyphs_eq : settings.options.glyphs = .ofSet settings.glyphSet
  value_eq : ∀ issue : Issue, settings.valueIn? issue =
    (Value.field? fields issue.fieldName).or (({} : Settings).valueIn? issue)

variable {machine : Machine} {fields : Fields}

/-!
# All refusals
-/

theorem mem_refusalOf {α : Type} {result : Except Refusal α} {refusal : Refusal} :
    refusal ∈ refusalOf result ↔ result = .error refusal := by
  cases result with
  | ok found => simp [refusalOf]
  | error other => simp [refusalOf, eq_comm]

/-- The refusals are what becomes of the fields with values that they may not have. -/
theorem mem_refusals_iff {refusal : Refusal} : refusal ∈ refusals machine fields ↔
    ∃ (issue : Issue) (value : Value), Value.field? fields issue.fieldName = some value ∧
      ¬ issue.Allows value ∧ issue.refuse machine value = refusal := by
  simp only [refusals, List.mem_append, List.mem_flatMap, mem_refusalOf,
    (reads_displayStyle machine fields).error_iff, (reads_glyphSetOf machine fields).error_iff,
    (reads_count machine fields _).error_iff, (reads_colorOf machine fields).error_iff,
    (reads_emitterOf machine fields).error_iff]
  constructor
  · rintro ((((found | found) | ⟨which, _, found⟩) | found) | found)
    · exact ⟨.displayStyle, found⟩
    · exact ⟨.glyphSet, found⟩
    · exact ⟨.count which, found⟩
    · exact ⟨.color, found⟩
    · exact ⟨.emitter, found⟩
  · rintro ⟨issue, found⟩
    cases issue with
    | displayStyle => exact Or.inl (Or.inl (Or.inl (Or.inl found)))
    | glyphSet => exact Or.inl (Or.inl (Or.inl (Or.inr found)))
    | count which =>
        have listed : which ∈ Count.all := by cases which <;> decide
        exact Or.inl (Or.inl (Or.inr ⟨which, listed, found⟩))
    | color => exact Or.inl (Or.inr found)
    | emitter => exact Or.inr found

/-- The issues that are told about, unless a fault ends the reading. -/
def issues (machine : Machine) (fields : Fields) : List Issue :=
  (refusals machine fields).filterMap Refusal.issue?

/-- The fault that ends the reading of a table. -/
def fault? (machine : Machine) (fields : Fields) : Option Fault :=
  (refusals machine fields).findSome? Refusal.fault?

/-- The reading ends with a fault exactly if a value that should be a name is too deep. -/
theorem fault?_eq_some_iff {fault : Fault} : fault? machine fields = some fault ↔
    fault = .tooDeep ∧ ∃ issue : Issue, issue.IsTooDeep machine fields := by
  have deep {refusal : Refusal} {found : Fault} (listed : refusal ∈ refusals machine fields)
      (ends : refusal.fault? = some found) :
      found = .tooDeep ∧ ∃ issue : Issue, issue.IsTooDeep machine fields := by
    rcases mem_refusals_iff.mp listed with ⟨issue, value, present, refused, rfl⟩
    rcases issue.refuse_eq_issue_or_fault machine value with told | failed
    · rw [told] at ends
      cases ends
    · have found := Issue.refuse_eq_fault_iff.mp failed
      rw [failed] at ends
      exact ⟨(Option.some.inj ends).symm, issue, value, present, refused, found⟩
  constructor
  · intro found
    rcases List.exists_of_findSome?_eq_some found with ⟨refusal, listed, ends⟩
    exact deep listed ends
  · rintro ⟨rfl, issue, value, present, refused, found⟩
    have listed : Refusal.fault .tooDeep ∈ refusals machine fields :=
      mem_refusals_iff.mpr ⟨issue, value, present, refused, Issue.refuse_eq_fault_iff.mpr found⟩
    cases first : fault? machine fields with
    | none => exact absurd (List.findSome?_eq_none_iff.mp first _ listed) (Option.some_ne_none _)
    | some other =>
        rcases List.exists_of_findSome?_eq_some first with ⟨refusal, inside, ends⟩
        rw [(deep inside ends).1]

theorem fault?_eq_none_iff :
    fault? machine fields = none ↔ ∀ issue : Issue, ¬ issue.IsTooDeep machine fields := by
  rw [Option.eq_none_iff_forall_ne_some]
  constructor
  · intro none issue deep
    exact none _ (fault?_eq_some_iff.mpr ⟨rfl, issue, deep⟩)
  · intro fine fault found
    rcases (fault?_eq_some_iff.mp found).2 with ⟨issue, deep⟩
    exact fine issue deep

/-- The issues that are told about are those that are raised. -/
theorem mem_issues_iff {issue : Issue} (fine : ∀ issue : Issue, ¬ issue.IsTooDeep machine fields) :
    issue ∈ issues machine fields ↔ issue.IsRaised fields := by
  have told {other : Issue} {value : Value}
      (present : Value.field? fields other.fieldName = some value)
      (refused : ¬ other.Allows value) : other.refuse machine value = .issue other := by
    refine (other.refuse_eq_issue_or_fault machine value).resolve_right ?_
    intro failed
    exact fine other ⟨value, present, refused, Issue.refuse_eq_fault_iff.mp failed⟩
  rw [issues, List.mem_filterMap]
  constructor
  · rintro ⟨refusal, listed, found⟩
    rcases mem_refusals_iff.mp listed with ⟨other, value, present, refused, rfl⟩
    rw [told present refused] at found
    cases found
    exact ⟨value, present, refused⟩
  · rintro ⟨value, present, refused⟩
    have listed := mem_refusals_iff.mpr ⟨issue, value, present, refused, told present refused⟩
    exact ⟨.issue issue, listed, rfl⟩

theorem Reads.sublist_filterMap {α : Type} {issue : Issue} {shown : α → Option Value} {default : α}
    {result : Except Refusal α} (h : Reads machine issue fields shown default result) :
    ((refusalOf result).filterMap Refusal.issue?).Sublist [issue] := by
  cases result with
  | ok found => exact List.nil_sublist _
  | error refusal =>
      rcases (h.error_iff refusal).mp rfl with ⟨value, _, _, rfl⟩
      rw [refusalOf]
      rcases issue.refuse_eq_issue_or_fault machine value with told | failed
      · rw [told]
        exact List.Sublist.refl _
      · rw [failed]
        exact List.nil_sublist _

/-- Issues are told in their fixed order, each one once. -/
theorem sublist_issues : (issues machine fields).Sublist Issue.all := by
  have counts (all : List Count) :
      ((all.flatMap fun one => refusalOf (count fields one)).filterMap Refusal.issue?).Sublist
        (all.map .count) := by
    induction all with
    | nil => exact List.Sublist.refl _
    | cons which rest ih =>
        rw [List.flatMap_cons, List.filterMap_append]
        exact (reads_count machine fields which).sublist_filterMap.append ih
  have first := (reads_displayStyle machine fields).sublist_filterMap.append
    (reads_glyphSetOf machine fields).sublist_filterMap
  have last := (reads_colorOf machine fields).sublist_filterMap.append
    (reads_emitterOf machine fields).sublist_filterMap
  rw [issues, refusals, List.append_assoc _ (refusalOf (colorOf machine fields))]
  simp only [List.filterMap_append]
  exact (first.append (counts Count.all)).append last

/-!
# Settings
-/

theorem accepted_eq_ok_iff {path : Option String} {settings : Settings} :
    accepted machine fields path = .ok settings ↔
      displayStyle machine fields = .ok settings.options.displayStyle ∧
        glyphSetOf machine fields = .ok settings.glyphSet ∧
        (∀ which : Count, count fields which = .ok (which.get settings.options)) ∧
        colorOf machine fields = .ok settings.color ∧
        emitterOf machine fields = .ok settings.emitter ∧
        settings.path = path ∧ settings.options.glyphs = .ofSet settings.glyphSet := by
  constructor
  · intro h
    simp only [accepted, bind_eq_ok_iff] at h
    rcases h with ⟨style, isStyle, set, isSet, tabWidth, isTabWidth, startContext, isStart,
      endContext, isEnd, before, isBefore, after, isAfter, color, isColor, emitter, isEmitter, made⟩
    cases made
    refine ⟨isStyle, isSet, ?_, isColor, isEmitter, rfl, rfl⟩
    intro which
    cases which with
    | tabWidth => exact isTabWidth
    | startContext => exact isStart
    | endContext => exact isEnd
    | before => exact isBefore
    | after => exact isAfter
  · rintro ⟨isStyle, isSet, isCount, isColor, isEmitter, isPath, isGlyphs⟩
    -- The glyphs are not read but made from their set.
    have made : accepted machine fields path = .ok { settings with
        options := { settings.options with glyphs := .ofSet settings.glyphSet } } := by
      simp only [accepted, isStyle, isSet, isCount, isColor, isEmitter, ← isPath]
      rfl
    rw [made, ← isGlyphs]

/-- Why a table with refused fields has no settings. -/
def loadError (machine : Machine) (path : Option String) (fields : Fields) : LoadError :=
  match fault? machine fields with
  | some found => .fault found
  | none => .invalid path (issues machine fields)

/-- Options that are read from a table are not refused as a whole. -/
theorem parse_eq (machine : Machine) (path : Option String) (fields : Fields) :
    parse path fields machine =
      (accepted machine fields path).mapError fun _ => loadError machine path fields := by
  rw [parse, ofTable, loadError]
  cases accepted machine fields path with
  | ok settings =>
      simp only [Options.ofRequest_request]
      rfl
  | error refusal =>
      have same : (refusals machine fields).findSome? Refusal.fault? = fault? machine fields := rfl
      simp only [same]
      cases fault? machine fields with
      | none => rfl
      | some found => rfl

theorem parse_eq_ok_iff_accepted {path : Option String} {settings : Settings} :
    parse path fields machine = .ok settings ↔ accepted machine fields path = .ok settings := by
  rw [parse_eq]
  cases accepted machine fields path with
  | ok found => simp [Except.mapError]
  | error refusal => simp [Except.mapError]

theorem parse_eq_ok_iff {path : Option String} {settings : Settings} :
    parse path fields machine = .ok settings ↔ settings.IsMadeOf path fields := by
  rw [parse_eq_ok_iff_accepted, accepted_eq_ok_iff, (reads_displayStyle machine fields).ok_iff,
    (reads_glyphSetOf machine fields).ok_iff, (reads_colorOf machine fields).ok_iff,
    (reads_emitterOf machine fields).ok_iff]
  simp only [(reads_count machine fields _).ok_iff]
  constructor
  · rintro ⟨isStyle, isSet, isCount, isColor, isEmitter, isPath, isGlyphs⟩
    refine ⟨isPath, isGlyphs, ?_⟩
    intro issue
    cases issue with
    | displayStyle => exact isStyle
    | glyphSet => exact isSet
    | count which => exact isCount which
    | color => exact isColor
    | emitter => exact isEmitter
  · rintro ⟨isPath, isGlyphs, values⟩
    exact ⟨values .displayStyle, values .glyphSet, fun which => values (.count which),
      values .color, values .emitter, isPath, isGlyphs⟩

/-- A table without issues has settings. -/
theorem exists_parse_eq_ok (path : Option String)
    (fine : ∀ issue : Issue, ¬ issue.IsRaised fields) :
    ∃ settings, parse path fields machine = .ok settings := by
  rcases (reads_displayStyle machine fields).exists_ok (fine _) with ⟨style, isStyle⟩
  rcases (reads_glyphSetOf machine fields).exists_ok (fine _) with ⟨set, isSet⟩
  rcases (reads_count machine fields .tabWidth).exists_ok (fine _) with ⟨tabWidth, isTabWidth⟩
  rcases (reads_count machine fields .startContext).exists_ok (fine _) with ⟨startContext, isStart⟩
  rcases (reads_count machine fields .endContext).exists_ok (fine _) with ⟨endContext, isEnd⟩
  rcases (reads_count machine fields .before).exists_ok (fine _) with ⟨before, isBefore⟩
  rcases (reads_count machine fields .after).exists_ok (fine _) with ⟨after, isAfter⟩
  rcases (reads_colorOf machine fields).exists_ok (fine _) with ⟨color, isColor⟩
  rcases (reads_emitterOf machine fields).exists_ok (fine _) with ⟨emitter, isEmitter⟩
  have made : ∃ settings, accepted machine fields path = .ok settings := by
    simp only [accepted, isStyle, isSet, isTabWidth, isStart, isEnd, isBefore, isAfter, isColor,
      isEmitter]
    exact ⟨_, rfl⟩
  exact made.imp fun _ => parse_eq_ok_iff_accepted.mpr

theorem not_isRaised_of_parse {path : Option String} {settings : Settings} {issue : Issue}
    (made : parse path fields machine = .ok settings) : ¬ issue.IsRaised fields := by
  rintro ⟨value, present, refused⟩
  rcases accepted_eq_ok_iff.mp (parse_eq_ok_iff_accepted.mp made) with
    ⟨isStyle, isSet, isCount, isColor, isEmitter, _⟩
  have none : refusals machine fields = [] := by
    simp [refusals, isStyle, isSet, isCount, isColor, isEmitter, refusalOf]
  have listed := (@mem_refusals_iff machine fields _).mpr ⟨issue, value, present, refused, rfl⟩
  rw [none] at listed
  exact absurd listed List.not_mem_nil

/-- A table with issues is refused with all of them, or with a fault. -/
theorem parse_eq_error_iff {path : Option String} {error : LoadError} :
    parse path fields machine = .error error ↔
      (∃ issue : Issue, issue.IsRaised fields) ∧ error = loadError machine path fields := by
  constructor
  · intro failed
    constructor
    · by_contra fine
      rw [not_exists] at fine
      rcases exists_parse_eq_ok path fine with ⟨settings, made⟩
      rw [made] at failed
      cases failed
    · rw [parse_eq] at failed
      cases made : accepted machine fields path with
      | ok settings =>
          rw [made] at failed
          cases failed
      | error refusal =>
          rw [made] at failed
          cases failed
          rfl
  · rintro ⟨⟨issue, raised⟩, rfl⟩
    rw [parse_eq]
    cases made : accepted machine fields path with
    | ok settings => exact absurd raised (not_isRaised_of_parse (parse_eq_ok_iff_accepted.mpr made))
    | error refusal => rfl

theorem loadError_of_isTooDeep {path : Option String} {issue : Issue}
    (deep : issue.IsTooDeep machine fields) :
    loadError machine path fields = .fault .tooDeep := by
  rw [loadError, fault?_eq_some_iff.mpr ⟨rfl, issue, deep⟩]

theorem loadError_of_forall_not {path : Option String}
    (fine : ∀ issue : Issue, ¬ issue.IsTooDeep machine fields) :
    loadError machine path fields = .invalid path (issues machine fields) := by
  rw [loadError, fault?_eq_none_iff.mpr fine]

/-!
# Messages
-/

theorem Issue.exists_oneOf_eq (names : List String) :
    ∃ rule : String, oneOf names = " must be " ++ rule ∧ '\n' ∉ rule.toList := by
  have listed : '\n' ∉ (", ".intercalate (names.map quoted)).toList := by
    apply not_mem_intercalate (by decide)
    intro text member
    rcases List.mem_map.mp member with ⟨name, _, rfl⟩
    exact newline_not_mem_quoted name
  refine ⟨"one of [" ++ ", ".intercalate (names.map quoted) ++ "]", ?_, ?_⟩
  · have front : " must be one of [" = " must be " ++ "one of [" := rfl
    calc oneOf names
      _ = " must be " ++ "one of [" ++ ", ".intercalate (names.map quoted) ++ "]" :=
          congrArg (fun first => first ++ ", ".intercalate (names.map quoted) ++ "]") front
      _ = _ := by simp only [String.append_assoc]
  · simp only [String.toList_append, List.mem_append, not_or]
    exact ⟨⟨by decide, listed⟩, by decide⟩

/-- A message tells, on one line, which field has to be what. -/
theorem Issue.exists_message_eq (issue : Issue) :
    ∃ rule : String, issue.message = issue.fieldName ++ " must be " ++ rule ∧
      '\n' ∉ rule.toList := by
  have choice (name : String) (names : List String) : ∃ rule : String,
      name ++ oneOf names = name ++ " must be " ++ rule ∧ '\n' ∉ rule.toList := by
    rcases exists_oneOf_eq names with ⟨rule, told, clean⟩
    exact ⟨rule, by rw [told, String.append_assoc], clean⟩
  cases issue with
  | displayStyle =>
      rw [message, fieldName]
      exact choice _ _
  | glyphSet =>
      rw [message, fieldName]
      exact choice _ _
  | count which =>
      have rule : " must be a non-negative integer" = " must be " ++ "a non-negative integer" := rfl
      refine ⟨"a non-negative integer", ?_, by decide⟩
      rw [message, fieldName, rule, String.append_assoc]
  | color =>
      rw [message, fieldName]
      exact choice _ _
  | emitter =>
      rw [message, fieldName]
      exact choice _ _

theorem Issue.newline_not_mem_message (issue : Issue) : '\n' ∉ issue.message.toList := by
  rcases issue.exists_message_eq with ⟨rule, message, clean⟩
  have name : '\n' ∉ issue.fieldName.toList := by
    cases issue with
    | displayStyle => decide
    | glyphSet => decide
    | count which => cases which <;> decide
    | color => decide
    | emitter => decide
  have middle : '\n' ∉ " must be ".toList := by decide
  simp only [message, String.toList_append, List.mem_append, name, middle, clean, or_self,
    not_false_eq_true]

theorem splitLines_intercalate {texts : List String} (nonempty : texts ≠ [])
    (single : ∀ text ∈ texts, '\n' ∉ text.toList) :
    splitLines ("\n".intercalate texts).toList = texts.map String.toList := by
  have split (front back : List Char) (line : '\n' ∉ front) :
      splitLines (front ++ '\n' :: back) = front :: splitLines back := by
    rw [splitLines, pieces_append, pieces_of_not_mem line]
    rfl
  induction texts with
  | nil => exact absurd rfl nonempty
  | cons text rest ih =>
      rw [List.forall_mem_cons] at single
      cases rest with
      | nil =>
          rw [String.intercalate_singleton, splitLines, pieces_of_not_mem single.1]
          rfl
      | cons next others =>
          have newline : "\n".toList = ['\n'] := rfl
          rw [String.intercalate_cons_cons, String.toList_append, String.toList_append, newline,
            List.append_assoc, List.singleton_append, split _ _ single.1,
            ih (List.cons_ne_nil _ _) single.2]
          rfl

/-- Below its heading a message has one line for each issue. -/
theorem splitLines_message (path : Option String) {issues : List Issue} (nonempty : issues ≠ []) :
    splitLines (LoadError.invalid path issues).message.toList =
      "Configuration errors:".toList ::
        issues.map fun issue => ("  - " ++ issue.message).toList := by
  have joined : (LoadError.invalid path issues).message = "\n".intercalate
      ("Configuration errors:" :: issues.map fun issue => "  - " ++ issue.message) := by
    rw [String.intercalate_cons_of_ne_nil (by simpa using nonempty)]
    rfl
  rw [joined, splitLines_intercalate (List.cons_ne_nil _ _), List.map_cons, List.map_map]
  · rfl
  · rw [List.forall_mem_cons]
    refine ⟨by decide, ?_⟩
    intro text member
    rcases List.mem_map.mp member with ⟨issue, _, rfl⟩
    have front : '\n' ∉ "  - ".toList := by decide
    rw [String.toList_append, List.mem_append, not_or]
    exact ⟨front, issue.newline_not_mem_message⟩

/-!
# Unknown fields
-/

/-- Whether a name is that of a field with settings. -/
def isKnown (name : Text) : Bool :=
  Issue.all.any fun issue => name = .whole issue.fieldName

theorem isKnown_fieldName (issue : Issue) : isKnown (.whole issue.fieldName) = true := by
  rw [isKnown, List.any_eq_true]
  exact ⟨issue, issue.mem_all, decide_eq_true rfl⟩

theorem named_congr {α : Type} {ofName? : String → Option α} {default : α} {issue : Issue}
    {others : Fields} {name : String}
    (same : Value.field? others name = Value.field? fields name) :
    named machine others ofName? default issue name =
      named machine fields ofName? default issue name := by
  rw [named, named, same]

/-- Only the values of the known fields count. -/
theorem parse_congr (machine : Machine) (path : Option String) {others : Fields}
    (same : ∀ issue : Issue,
      Value.field? others issue.fieldName = Value.field? fields issue.fieldName) :
    parse path others machine = parse path fields machine := by
  have isStyle : displayStyle machine others = displayStyle machine fields :=
    named_congr (same .displayStyle)
  have isSet : glyphSetOf machine others = glyphSetOf machine fields := named_congr (same .glyphSet)
  have isCount : count others = count fields := by
    funext which
    have value : Value.field? others which.name = Value.field? fields which.name :=
      same (.count which)
    rw [count, count, value]
  have isColor : colorOf machine others = colorOf machine fields := named_congr (same .color)
  have isEmitter : emitterOf machine others = emitterOf machine fields :=
    named_congr (same .emitter)
  simp only [parse_eq, accepted, loadError, fault?, issues, refusals, isStyle, isSet, isCount,
    isColor, isEmitter]

/-!
# Exactness
-/

/-- An error tells all issues of a table in their order, in a line of its message for each. -/
structure Tells (error : LoadError) (path : Option String) (fields : Fields)
    (issues : List Issue) : Prop where
  error_eq : error = .invalid path issues
  sublist_all : issues.Sublist Issue.all
  mem_iff : ∀ issue, issue ∈ issues ↔ issue.IsRaised fields
  lines_eq : splitLines error.message.toList =
    "Configuration errors:".toList :: issues.map fun issue => ("  - " ++ issue.message).toList
  message_eq : ∀ issue ∈ issues, ∃ rule, issue.message = issue.fieldName ++ " must be " ++ rule

theorem tells_of_parse {path : Option String} {error : LoadError}
    (fine : ∀ issue : Issue, ¬ issue.IsTooDeep machine fields)
    (failed : parse path fields machine = .error error) :
    Tells error path fields (issues machine fields) := by
  rcases parse_eq_error_iff.mp failed with ⟨⟨issue, raised⟩, rfl⟩
  have nonempty : issues machine fields ≠ [] :=
    List.ne_nil_of_mem ((mem_issues_iff fine).mpr raised)
  rw [loadError_of_forall_not fine]
  exact ⟨rfl, sublist_issues, fun _ => mem_issues_iff fine, splitLines_message path nonempty,
    fun issue _ => issue.exists_message_eq.imp fun _ told => told.1⟩

/-- A table is refused exactly if a known field has a value that it may not have. The error then
tells each of these fields once, in the fixed order, unless one of them has to be a name and has a
value that is too deep to be quoted: then the reading ends with a fault. Without such fields there
are settings, with the values of the table and the defaults for what it lacks. Unknown fields change
nothing. -/
theorem tables_exact (machine : Machine) (path : Option String) (fields : Fields) :
    ((∃ error, parse path fields machine = .error error) ↔
        ∃ issue : Issue, issue.IsRaised fields) ∧
      (∀ error, parse path fields machine = .error error →
        ((∃ issue : Issue, issue.IsTooDeep machine fields) ∧ error = .fault .tooDeep) ∨
          (∀ issue : Issue, ¬ issue.IsTooDeep machine fields) ∧
            ∃ issues, Tells error path fields issues) ∧
      ((∀ issue : Issue, ¬ issue.IsRaised fields) →
        ∃ settings, parse path fields machine = .ok settings ∧ settings.IsMadeOf path fields) ∧
      parse path (fields.filter fun field => isKnown field.1) machine =
        parse path fields machine := by
  refine ⟨?_, ?_, ?_, ?_⟩
  · constructor
    · rintro ⟨error, failed⟩
      exact (parse_eq_error_iff.mp failed).1
    · intro raised
      exact ⟨_, parse_eq_error_iff.mpr ⟨raised, rfl⟩⟩
  · intro error failed
    by_cases deep : ∃ issue : Issue, issue.IsTooDeep machine fields
    · rcases deep with ⟨issue, found⟩
      rw [(parse_eq_error_iff.mp failed).2]
      exact Or.inl ⟨⟨issue, found⟩, loadError_of_isTooDeep found⟩
    · rw [not_exists] at deep
      exact Or.inr ⟨deep, _, tells_of_parse deep failed⟩
  · intro fine
    rcases exists_parse_eq_ok path fine with ⟨settings, made⟩
    exact ⟨settings, made, parse_eq_ok_iff.mp made⟩
  · exact parse_congr machine path fun issue => Value.field?_filter (isKnown_fieldName issue)

example : parse none [("emitter", .null), ("size", .int 3), ("tab_width", .scalar (.bool true))] =
    .error (.invalid none [.count .tabWidth, .emitter]) :=
  rfl

/-- A table in a table, and so on. -/
def nested : Nat → Value
  | 0 => .table []
  | levels + 1 => .table [("a", nested levels)]

theorem quoteFault?_nested {levels inner : Nat} (deep : levels ≤ inner) :
    (nested inner).quoteFault? levels = some .tooDeep := by
  induction levels generalizing inner with
  | zero => rfl
  | succ levels ih =>
      cases inner with
      | zero => exact absurd deep (Nat.not_succ_le_zero levels)
      | succ inner =>
          have innermost := ih (Nat.le_of_succ_le_succ deep)
          rw [nested, Value.quoteFault?, List.findSome?_cons, innermost]
          cases levels with
          | zero => rfl
          | succ levels => rfl

/-- A value that is too deep to be quoted is refused without being told about. -/
theorem tables_too_deep :
    Issue.displayStyle.IsRaised [("display_style", nested 1200)] ∧
      parse none [("display_style", nested 1200)] = .error (.fault .tooDeep) ∧
      ∀ issues, ¬ Tells (.fault .tooDeep) none [("display_style", nested 1200)] issues := by
  have deep : Issue.displayStyle.IsTooDeep {} [("display_style", nested 1200)] := by
    refine ⟨nested 1200, rfl, ?_, trivial, quoteFault?_nested (by decide)⟩
    rintro ⟨style, same⟩
    cases same
  refine ⟨deep.isRaised, ?_, ?_⟩
  · rw [parse_eq_error_iff, loadError_of_isTooDeep deep]
    exact ⟨⟨_, deep.isRaised⟩, rfl⟩
  · intro issues told
    cases told.error_eq

end Settings
end SourceReport
