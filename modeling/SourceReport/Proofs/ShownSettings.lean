import SourceReport.Proofs.JsonTexts
import SourceReport.Proofs.SettingsTables

/-!
# Shown settings

Settings that are shown as a table load back as themselves once the path, and an emitter that is not
set, are taken out of it. The text of the table is read as the table again, and no other settings
have that text.
-/

namespace SourceReport
namespace Settings

/-!
# Shown tables
-/

/-- The fields of a shown table that can be loaded: all but the path, and the emitter only if it is
set. -/
def loadable (fields : Fields) : Fields :=
  fields.filter fun field =>
    field.1 ≠ .whole "config_path" && !(field.1 = .whole "emitter" && field.2 matches .scalar .null)

theorem field?_loadable (settings : Settings) (issue : Issue) :
    Value.field? (loadable settings.toTable) issue.fieldName = settings.valueIn? issue := by
  rcases settings with ⟨path, options, glyphSet, color, emitter⟩
  cases emitter with
  | none =>
      cases issue with
      | displayStyle => rfl
      | glyphSet => rfl
      | count which => cases which <;> rfl
      | color => rfl
      | emitter => rfl
  | some kind =>
      cases issue with
      | displayStyle => rfl
      | glyphSet => rfl
      | count which => cases which <;> rfl
      | color => rfl
      | emitter => rfl

theorem path_eq_of_toTable_eq {settings other : Settings}
    (same : settings.toTable = other.toTable) : settings.path = other.path := by
  have shown : (settings.path.map Value.text).getD .null =
      (other.path.map Value.text).getD .null :=
    congrArg Prod.snd (List.cons.inj same).1
  cases first : settings.path with
  | none =>
      cases second : other.path with
      | none => rfl
      | some path =>
          rw [first, second] at shown
          cases shown
  | some path =>
      cases second : other.path with
      | none =>
          rw [first, second] at shown
          cases shown
      | some otherPath =>
          rw [first, second] at shown
          cases shown
          rfl

/-!
# Texts of shown tables
-/

theorem simple_toTable (settings : Settings) :
    ∀ field ∈ settings.toTable, Json.Simple field.2 := by
  have path : Json.Simple ((settings.path.map Value.text).getD .null) := by
    cases settings.path with
    | none => exact .null
    | some path => exact .text path
  have emitter : Json.Simple
      ((settings.emitter.map fun kind => Value.text kind.name).getD .null) := by
    cases settings.emitter with
    | none => exact .null
    | some kind => exact .text kind.name
  simp only [toTable, List.forall_mem_cons]
  exact ⟨path, .text _, .int _, .text _, .int _, .int _, .int _, .int _, .text _, emitter,
    List.forall_mem_nil _⟩

theorem isShort_toTable {settings : Settings} (writable : settings.isWritable = true) :
    ∀ field ∈ settings.toTable, Json.IsShort field.2 := by
  have count (which : Count) : Json.IsShort (.int (which.get settings.options)) := by
    have listed : which ∈ Count.all := by cases which <;> decide
    have few := of_decide_eq_true (List.all_eq_true.mp writable which listed)
    rintro n ⟨⟩
    exact few
  have text (text : String) : Json.IsShort (.text text) := by
    rintro n ⟨⟩
  have path : Json.IsShort ((settings.path.map Value.text).getD .null) := by
    cases settings.path with
    | none => rintro n ⟨⟩
    | some path => exact text path
  have emitter : Json.IsShort
      ((settings.emitter.map fun kind => Value.text kind.name).getD .null) := by
    cases settings.emitter with
    | none => rintro n ⟨⟩
    | some kind => exact text kind.name
  simp only [toTable, List.forall_mem_cons]
  exact ⟨path, text _, count .tabWidth, text _, count .startContext, count .endContext,
    count .before, count .after, text _, emitter, List.forall_mem_nil _⟩

theorem map_fst_toTable (settings : Settings) :
    settings.toTable.map Prod.fst =
      ["config_path", "display_style", "tab_width", "chars", "start_context_lines",
        "end_context_lines", "before_label_lines", "after_label_lines", "color", "emitter"].map
          Text.whole :=
  rfl

/-- What is written of settings is read as the table that shows them. -/
theorem read_write_toTable {settings : Settings} (writable : settings.isWritable = true) :
    Json.read (Json.write (.table settings.toTable)).toList = .ok (.table settings.toTable) := by
  have readable : ∀ field ∈ settings.toTable, Json.IsReadable field := by
    intro field member
    have named : field.1 ∈ settings.toTable.map Prod.fst := List.mem_map_of_mem member
    rw [map_fst_toTable] at named
    rcases List.mem_map.mp named with ⟨name, _, same⟩
    exact ⟨⟨name, same.symm⟩, simple_toTable settings field member,
      isShort_toTable writable field member⟩
  have distinct : (settings.toTable.map Prod.fst).Nodup := by
    rw [map_fst_toTable]
    decide
  exact Json.read_write_table readable distinct

variable {machine : Machine} {path : Option String} {fields : Fields} {settings : Settings}

theorem parse_loadable (loaded : parse path fields machine = .ok settings) (again : Machine) :
    parse settings.path (loadable settings.toTable) again = .ok settings := by
  have made := parse_eq_ok_iff.mp loaded
  refine parse_eq_ok_iff.mpr ⟨rfl, made.glyphs_eq, ?_⟩
  intro issue
  rw [field?_loadable]
  cases issue with
  | emitter => exact (Option.or_none ..).symm
  | _ => rfl

/-- Loaded settings are what is loaded of the table that shows them. Its text is read as that table,
if the numbers have few enough digits to be written, and no other settings have the same text. -/
theorem shown_settings_exact (loaded : parse path fields machine = .ok settings) :
    (∀ again : Machine, parse settings.path (loadable settings.toTable) again = .ok settings) ∧
      (settings.isWritable = true →
        Json.read (Json.write (.table settings.toTable)).toList =
          .ok (.table settings.toTable)) ∧
      ∀ otherMachine otherPath others other, parse otherPath others otherMachine = .ok other →
        Json.write (.table other.toTable) = Json.write (.table settings.toTable) →
        other = settings := by
  refine ⟨parse_loadable loaded, read_write_toTable, ?_⟩
  intro otherMachine otherPath others other alsoLoaded same
  have sameTable : other.toTable = settings.toTable :=
    Json.eq_of_write_table_eq rfl (simple_toTable other) (simple_toTable settings) same
  -- Both are what is loaded of the one table.
  have first := parse_loadable loaded {}
  have second := parse_loadable alsoLoaded {}
  rw [sameTable, path_eq_of_toTable_eq sameTable, first] at second
  exact (Except.ok.inj second).symm

/-- A table that gives every field a value other than its default, and one more field. -/
def everyField : Fields :=
  [("display_style", .text "medium"), ("chars", .text "ascii"), ("tab_width", .int 2),
    ("start_context_lines", .int 5), ("end_context_lines", .int 0), ("before_label_lines", .int 1),
    ("after_label_lines", .int 4), ("color", .text "never"), ("emitter", .text "debug"),
    ("theme", .text "dark")]

theorem everyField_shown_exact : ∃ settings,
    parse (some "pyproject.toml") everyField = .ok settings ∧
      (∀ issue : Issue, settings.valueIn? issue ≠ ({} : Settings).valueIn? issue) ∧
      parse settings.path (loadable settings.toTable) = .ok settings ∧
      Json.read (Json.write (.table settings.toTable)).toList = .ok (.table settings.toTable) := by
  have loaded : parse (some "pyproject.toml") everyField = .ok {
      path := some "pyproject.toml"
      options := {
        displayStyle := .medium, tabWidth := 2, glyphs := .ofSet .ascii, startContext := 5
        endContext := 0, before := 1, after := 4 }
      glyphSet := .ascii, color := .never, emitter := some .debug } :=
    rfl
  have shown := shown_settings_exact loaded
  refine ⟨_, loaded, ?_, shown.1 {}, shown.2.1 (by decide)⟩
  intro issue
  cases issue with
  | count which => cases which <;> simp [valueIn?, Count.get, Value.int]
  | _ => simp [valueIn?, Value.text, DisplayStyle.name, GlyphSet.name, ColorMode.name]

end Settings
end SourceReport
