import SourceReport.Proofs.Writes

/-!
# Terminals

A terminal shows the characters that it reads, and reads an escape sequence as a change of the look
of the characters after it. The parameters of sequences accumulate until a zero clears them all.
-/

namespace SourceReport

/-- How a terminal shows a character. A color is given with whether it is bright. -/
structure Look where
  foreground : Option (Color × Bool) := none
  background : Option (Color × Bool) := none
  bold : Bool := false
  underline : Bool := false
  deriving DecidableEq, Repr

namespace Look

def ofStyle (style : Style) : Look where
  foreground := style.foreground.map fun color => (color, style.intense)
  background := style.background.map fun color => (color, style.intense)
  bold := style.bold
  underline := style.underline

/-- The color that a parameter selects, if it is one of the eight that are counted from `first`. -/
def color? (first code : Nat) : Option Color :=
  if first ≤ code then Color.all[code - first]? else none

/-- The look after one parameter of a sequence. Unknown parameters change nothing. -/
def select (look : Look) (code : Nat) : Look :=
  if code = 0 then {}
  else if code = 1 then { look with bold := true }
  else if code = 4 then { look with underline := true }
  else
    match color? 30 code, color? 40 code, color? 90 code, color? 100 code with
    | some color, _, _, _ => { look with foreground := some (color, false) }
    | _, some color, _, _ => { look with background := some (color, false) }
    | _, _, some color, _ => { look with foreground := some (color, true) }
    | _, _, _, some color => { look with background := some (color, true) }
    | none, none, none, none => look

end Look

/-!
# Reading
-/

/-- What a terminal takes the next character for: a text, the second character of a sequence, or a
digit of its parameters. -/
inductive TerminalMode where
  | text
  | escape
  | sequence (codes : List Nat) (code : Nat)
  deriving DecidableEq, Repr

structure Terminal where
  look : Look := {}
  mode : TerminalMode := .text
  shown : List (Char × Look) := []
  deriving DecidableEq, Repr

namespace Terminal

/-- A parameter without digits is zero. A sequence that does not select a look is passed over. -/
def read (terminal : Terminal) (c : Char) : Terminal :=
  match terminal.mode with
  | .text =>
      if c = '\x1b' then { terminal with mode := .escape }
      else { terminal with shown := terminal.shown ++ [(c, terminal.look)] }
  | .escape => { terminal with mode := if c = '[' then .sequence [] 0 else .text }
  | .sequence codes code =>
      if c.isDigit then
        { terminal with mode := .sequence codes (10 * code + (c.toNat - '0'.toNat)) }
      else if c = ';' then { terminal with mode := .sequence (codes ++ [code]) 0 }
      else if c = 'm' then
        { terminal with mode := .text, look := (codes ++ [code]).foldl Look.select terminal.look }
      else { terminal with mode := .text }

def readAll (terminal : Terminal) (chars : List Char) : Terminal :=
  chars.foldl read terminal

/-- A new terminal after it has read a text. -/
def ofText (text : String) : Terminal :=
  readAll {} text.toList

variable {look : Look} {shown : List (Char × Look)}

theorem readAll_append (terminal : Terminal) (front back : List Char) :
    terminal.readAll (front ++ back) = (terminal.readAll front).readAll back :=
  List.foldl_append

theorem readAll_text {chars : List Char} (h : '\x1b' ∉ chars) :
    readAll ⟨look, .text, shown⟩ chars = ⟨look, .text, shown ++ chars.map fun c => (c, look)⟩ := by
  induction chars generalizing shown with
  | nil => rw [List.map_nil, List.append_nil]; rfl
  | cons c rest ih =>
      rw [List.mem_cons, not_or] at h
      have first : read ⟨look, .text, shown⟩ c = ⟨look, .text, shown ++ [(c, look)]⟩ :=
        if_neg (Ne.symm h.1)
      rw [readAll, List.foldl_cons, first, ← readAll, ih h.2, List.append_assoc]
      rfl

theorem readAll_digits {digits : List Char} (h : ∀ c ∈ digits, c.isDigit = true)
    (codes : List Nat) (code : Nat) :
    readAll ⟨look, .sequence codes code, shown⟩ digits =
      ⟨look, .sequence codes (Nat.ofDigitChars 10 digits code), shown⟩ := by
  induction digits generalizing code with
  | nil => rfl
  | cons c rest ih =>
      rw [List.forall_mem_cons] at h
      have first : read ⟨look, .sequence codes code, shown⟩ c =
          ⟨look, .sequence codes (10 * code + (c.toNat - '0'.toNat)), shown⟩ := if_pos h.1
      rw [readAll, List.foldl_cons, first, ← readAll, ih h.2, Nat.ofDigitChars_cons]

theorem readAll_number (codes : List Nat) (n : Nat) :
    readAll ⟨look, .sequence codes 0, shown⟩ (toString n).toList =
      ⟨look, .sequence codes n, shown⟩ := by
  have digits : ∀ c ∈ Nat.toDigits 10 n, c.isDigit = true := by
    intro c member
    exact Nat.isDigit_of_mem_toDigits (by decide) (by decide) member
  rw [Nat.toString_eq_repr, Nat.toList_repr, readAll_digits digits, Nat.ofDigitChars_ten_toDigits]

/-- The parameters of a sequence are read one after another, each with the semicolon before it. -/
theorem readAll_codes (done : List Nat) (first : Nat) (rest : List Nat) :
    readAll ⟨look, .sequence done 0, shown⟩
        ((";".intercalate ((first :: rest).map toString)).toList ++ ['m']) =
      ⟨(done ++ first :: rest).foldl Look.select look, .text, shown⟩ := by
  induction rest generalizing done first with
  | nil =>
      rw [List.map_singleton, String.intercalate_singleton, readAll_append, readAll_number]
      rfl
  | cons next others ih =>
      have between : readAll ⟨look, .sequence done first, shown⟩ ";".toList =
          ⟨look, .sequence (done ++ [first]) 0, shown⟩ := rfl
      rw [List.map_cons, List.map_cons, String.intercalate_cons_cons, String.toList_append,
        String.toList_append, List.append_assoc, List.append_assoc, readAll_append, readAll_number,
        readAll_append, between, ← List.map_cons, ih, List.append_assoc, List.singleton_append]

end Terminal

/-!
# Looks of styles
-/

namespace Look

theorem select_foreground (look : Look) (color : Color) (intense : Bool) :
    look.select (30 + color.offset + if intense then 60 else 0) =
      { look with foreground := some (color, intense) } := by
  cases color <;> cases intense <;> rfl

theorem select_background (look : Look) (color : Color) (intense : Bool) :
    look.select (40 + color.offset + if intense then 60 else 0) =
      { look with background := some (color, intense) } := by
  cases color <;> cases intense <;> rfl

/-- The parameters for a style select its look, if nothing is selected before. -/
theorem foldl_select_ansiCodes (style : Style) :
    style.ansiCodes.foldl select {} = ofStyle style := by
  rcases style with ⟨foreground, background, bold, underline, intense⟩
  have weight : ∀ look : Look, (if bold then [1] else []).foldl select look =
      { look with bold := bold || look.bold } := by
    intro look
    cases bold <;> rfl
  have line : ∀ look : Look, (if underline then [4] else []).foldl select look =
      { look with underline := underline || look.underline } := by
    intro look
    cases underline <;> rfl
  rw [Style.ansiCodes, List.foldl_append, List.foldl_append, List.foldl_append, weight, line]
  cases foreground with
  | none =>
      cases background with
      | none => simp [ofStyle]
      | some color => simp [ofStyle, select_background]
  | some color =>
      cases background with
      | none => simp [ofStyle, select_foreground]
      | some other => simp [ofStyle, select_foreground, select_background]

end Look

namespace Terminal

variable {look : Look} {shown : List (Char × Look)}

theorem readAll_closing :
    readAll ⟨look, .text, shown⟩ EmitterKind.ansi.closing.toList = ⟨{}, .text, shown⟩ := rfl

theorem readAll_opening (role : Role) (style : Style) :
    readAll ⟨{}, .text, shown⟩ (EmitterKind.ansi.opening role style).toList =
      ⟨Look.ofStyle style, .text, shown⟩ := by
  have begun : readAll ⟨{}, .text, shown⟩ "\x1b[".toList = ⟨{}, .sequence [] 0, shown⟩ := rfl
  have codes := Look.foldl_select_ansiCodes style
  have written : EmitterKind.ansi.opening role style =
      "\x1b[" ++ ";".intercalate (style.ansiCodes.map toString) ++ "m" := rfl
  rw [written, String.toList_append, String.toList_append, List.append_assoc,
    readAll_append, begun]
  cases selected : style.ansiCodes with
  | nil =>
      rw [selected] at codes
      rw [← codes]
      rfl
  | cons first rest =>
      have last : "m".toList = ['m'] := rfl
      rw [last, readAll_codes, List.nil_append, ← selected, codes]

theorem readAll_resetActions (current : Style) :
    readAll ⟨Look.ofStyle current, .text, shown⟩
        (Action.chars (EmitterKind.ansi.resetActions current)) = ⟨{}, .text, shown⟩ := by
  rw [EmitterKind.resetActions]
  split
  · rename_i plain
    rw [plain]
    rfl
  · exact readAll_closing

end Terminal

/-!
# Styles of written characters
-/

namespace Event

/-- The characters that events write, each with the style that was set last and not reset since. -/
def inStyles (style : Style) : List Event → List (Char × Style)
  | [] => []
  | .write piece :: rest => piece.string.toList.map (fun c => (c, style)) ++ inStyles style rest
  | .set _ next :: rest => inStyles next rest
  | .reset :: rest => inStyles .plain rest

/-- The style that is set after events. -/
def styleAfter (style : Style) : List Event → Style
  | [] => style
  | .write _ :: rest => styleAfter style rest
  | .set _ next :: rest => styleAfter next rest
  | .reset :: rest => styleAfter .plain rest

theorem map_fst_inStyles (style : Style) (events : List Event) :
    (inStyles style events).map Prod.fst = (events.filterMap text?).flatMap String.toList := by
  induction events generalizing style with
  | nil => rfl
  | cons event rest ih =>
      cases event with
      | write piece =>
          rw [inStyles, List.map_append, List.map_map, ih,
            List.filterMap_cons_some (f := Event.text?) rfl, List.flatMap_cons]
          exact congrArg (· ++ _) (List.map_id piece.string.toList)
      | set role next => exact ih next
      | reset => exact ih .plain

theorem styleAfter_concat_reset (style : Style) (events : List Event) :
    styleAfter style (events ++ [.reset]) = .plain := by
  induction events generalizing style with
  | nil => rfl
  | cons event rest ih =>
      cases event with
      | write piece => exact ih style
      | set role next => exact ih next
      | reset => exact ih .plain

end Event

namespace Terminal

open Event

variable {shown : List (Char × Look)}

/-- Setting a style leaves the terminal in its look, whatever was shown before. -/
theorem readAll_setActions (current : Style) (role : Role) (style : Style) :
    readAll ⟨Look.ofStyle current, .text, shown⟩
        (Action.chars (EmitterKind.ansi.setActions current role style)) =
      ⟨Look.ofStyle style, .text, shown⟩ := by
  rw [EmitterKind.setActions]
  split
  · rename_i same
    rw [same]
    rfl
  · rw [Action.chars_append, readAll_append, readAll_resetActions]
    split
    · rename_i plain
      rw [plain]
      rfl
    · have written : Action.chars [.put (EmitterKind.ansi.opening role style), .become style] =
          (EmitterKind.ansi.opening role style).toList := List.append_nil _
      rw [written, readAll_opening]

/-- The terminal stays in the look of the style that is set, and shows each character in it. -/
theorem readAll_output {events : List Event}
    (h : ∀ piece, .write piece ∈ events → '\x1b' ∉ piece.string.toList) (current : Style) :
    readAll ⟨Look.ofStyle current, .text, shown⟩ (EmitterKind.ansi.output current events) =
      ⟨Look.ofStyle (styleAfter current events), .text,
        shown ++ (inStyles current events).map fun (c, style) => (c, Look.ofStyle style)⟩ := by
  induction events generalizing current shown with
  | nil =>
      rw [inStyles, List.map_nil, List.append_nil]
      rfl
  | cons event rest ih =>
      have others : ∀ piece, .write piece ∈ rest → '\x1b' ∉ piece.string.toList := by
        intro piece member
        exact h piece (List.mem_cons_of_mem event member)
      rw [EmitterKind.output, readAll_append]
      cases event with
      | write piece =>
          have unescaped := h piece List.mem_cons_self
          have written : Action.chars (EmitterKind.ansi.actions current (.write piece)) =
              piece.string.toList := Action.chars_put piece.string
          rw [written, readAll_text unescaped]
          refine (ih others current).trans ?_
          rw [inStyles, List.map_append, List.map_map, List.append_assoc]
          rfl
      | set role style =>
          rw [EmitterKind.shown_set (by decide)]
          rw [EmitterKind.actions, readAll_setActions]
          exact ih others style
      | reset =>
          rw [EmitterKind.shown_reset (by decide)]
          have plain : readAll ⟨Look.ofStyle current, .text, shown⟩
              (Action.chars (EmitterKind.ansi.actions current .reset)) = ⟨{}, .text, shown⟩ :=
            readAll_resetActions current
          rw [plain]
          exact ih others .plain

theorem terminal_exact (sink : Sink) (accepts : ({ kind := .ansi, sink } : Emitter).Accepts)
    (empty : sink.written = "") (events : List Event)
    (unescaped : ∀ piece, .write piece ∈ events → '\x1b' ∉ piece.string.toList) :
    let run := ({ kind := .ansi, sink } : Emitter).run events
    let terminal := ofText run.1.sink.written
    run.2 = none ∧
      terminal.shown = (inStyles .plain events).map (fun (c, style) => (c, Look.ofStyle style)) ∧
      terminal.shown.map Prod.fst = (events.filterMap text?).flatMap String.toList ∧
      terminal.mode = .text ∧
      terminal.look = Look.ofStyle (styleAfter .plain events) ∧
      (events.getLast? = some .reset → terminal.look = {}) := by
  intro run terminal
  have written : run.1.sink.written.toList = EmitterKind.ansi.output .plain events := by
    rw [(Emitter.leads_run accepts events).written_eq, empty]
    rfl
  have read : terminal = ⟨Look.ofStyle (styleAfter .plain events), .text,
      (inStyles .plain events).map fun (c, style) => (c, Look.ofStyle style)⟩ := by
    show readAll {} run.1.sink.written.toList = _
    rw [written]
    exact readAll_output unescaped .plain
  rw [read]
  refine ⟨(Emitter.run_of_accepts accepts events).1, rfl, ?_, rfl, rfl, ?_⟩
  · rw [List.map_map, ← map_fst_inStyles .plain events]
    rfl
  · intro last
    rcases List.getLast?_eq_some_iff.mp last with ⟨front, rfl⟩
    show Look.ofStyle (styleAfter .plain (front ++ [.reset])) = {}
    rw [styleAfter_concat_reset]
    rfl

theorem terminal_exact_letters :
    let events : List Event :=
      [.set .lineNumber { intense := true }, .write "a", .reset,
        .set .headerMessage { foreground := some .red, background := some .blue, intense := true },
        .set (.label .help .primary) { bold := true, underline := true }, .write "b", .reset]
    let terminal := ofText (({ kind := .ansi } : Emitter).run events).1.sink.written
    ({ kind := .ansi } : Emitter).Accepts ∧
      (∀ piece, .write piece ∈ events → '\x1b' ∉ piece.string.toList) ∧
      terminal.shown = [('a', {}), ('b', { bold := true, underline := true })] ∧
      terminal.look = {} := by
  intro events terminal
  have accepts : ({ kind := .ansi } : Emitter).Accepts := fun _ _ _ => rfl
  have unescaped : ∀ piece, .write piece ∈ events → '\x1b' ∉ piece.string.toList := by
    intro piece member
    simp only [events, List.mem_cons, Event.write.injEq, reduceCtorEq, List.not_mem_nil, or_false,
      false_or] at member
    rcases member with rfl | rfl <;> decide
  have exact := terminal_exact .unlimited accepts rfl events unescaped
  exact ⟨accepts, unescaped, exact.2.1, exact.2.2.2.2.2 rfl⟩

end Terminal
end SourceReport
