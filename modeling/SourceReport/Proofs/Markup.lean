import Mathlib.Data.List.Nodup
import SourceReport.Proofs.Writes

/-!
# Markup

Markup is a text with tags, in which the characters that would begin or end a tag or an entity are
written as entities. The tags of a report open and close spans by turns, and without them the markup
is the escaped text.
-/

namespace SourceReport
namespace Role

/-!
# Names of roles
-/

def all : List Role :=
  [.headerMessage, .lineNumber, .sourceBorder, .noteBullet] ++
    Severity.all.flatMap fun severity =>
      [.header severity, .label severity .primary, .label severity .secondary]

theorem mem_all (role : Role) : role ∈ all := by
  cases role with
  | header severity => cases severity <;> decide
  | headerMessage => decide
  | label severity style => cases severity <;> cases style <;> decide
  | lineNumber => decide
  | sourceBorder => decide
  | noteBullet => decide

def isNameChar (c : Char) : Bool :=
  c.isAlpha || c = '-'

theorem all_isNameChar (role : Role) : role.name.toList.all isNameChar = true := by
  have ofSeverity (severity : Severity) : severity.name.toList.all isNameChar = true := by
    cases severity <;> decide
  have ofStyle (style : LabelStyle) : style.name.toList.all isNameChar = true := by
    cases style <;> decide
  cases role with
  | header severity =>
      simp only [name, String.toList_append, List.all_append, ofSeverity, Bool.and_true]
      decide
  | headerMessage => decide
  | label severity style =>
      simp only [name, String.toList_append, List.all_append, ofSeverity, ofStyle, Bool.and_true]
      decide
  | lineNumber => decide
  | sourceBorder => decide
  | noteBullet => decide

theorem not_mem_name {c : Char} (h : isNameChar c = false) (role : Role) :
    c ∉ role.name.toList := by
  intro member
  rw [List.all_eq_true.mp role.all_isNameChar c member] at h
  cases h

theorem name_injective : Function.Injective name := by
  have distinct : (all.map name).Nodup := by decide +kernel
  intro role other same
  exact List.inj_on_of_nodup_map distinct role.mem_all other.mem_all same

end Role

namespace Markup

/-!
# Reading markup
-/

/-- A tag, without its brackets, or a character outside of the tags. -/
inductive Piece where
  | tag (body : List Char)
  | char (c : Char)
  deriving DecidableEq, Repr

namespace Piece

def tag? : Piece → Option String
  | .tag body => some (String.ofList body)
  | .char _ => none

def char? : Piece → Option Char
  | .tag _ => none
  | .char c => some c

end Piece

/-- The pieces of markup, where the characters of an open tag may be read already. What looks like a
tag but does not end is read as characters. -/
def read : Option (List Char) → List Char → List Piece
  | none, [] => []
  | some body, [] => ('<' :: body).map .char
  | none, c :: rest => if c = '<' then read (some []) rest else .char c :: read none rest
  | some body, c :: rest =>
      if c = '>' then .tag body :: read none rest else read (some (body ++ [c])) rest

/-- The tags of a text, in order. -/
def tags (text : String) : List String :=
  (read none text.toList).filterMap Piece.tag?

/-- A text with its tags deleted. -/
def withoutTags (text : String) : String :=
  String.ofList ((read none text.toList).filterMap Piece.char?)

def unescapeChars : List Char → List Char
  | [] => []
  | '&' :: 'l' :: 't' :: ';' :: rest => '<' :: unescapeChars rest
  | '&' :: 'g' :: 't' :: ';' :: rest => '>' :: unescapeChars rest
  | '&' :: 'a' :: 'm' :: 'p' :: ';' :: rest => '&' :: unescapeChars rest
  | c :: rest => c :: unescapeChars rest

/-- A text with the characters that its entities stand for. -/
def unescape (text : String) : String :=
  String.ofList (unescapeChars text.toList)

/-- Tags that open and close spans by turns, from a text that is within a span or not to one that
is or not. -/
inductive Alternate : Bool → List String → Bool → Prop
  | nil (isOpen : Bool) : Alternate isOpen [] isOpen
  | opening (role : Role) {rest : List String} {last : Bool} (h : Alternate true rest last) :
      Alternate false (("span class=\"" ++ role.name ++ "\"") :: rest) last
  | closing {rest : List String} {last : Bool} (h : Alternate false rest last) :
      Alternate true ("/span" :: rest) last

theorem Alternate.append {first second third : Bool} {front back : List String}
    (left : Alternate first front second) (right : Alternate second back third) :
    Alternate first (front ++ back) third := by
  induction left with
  | nil isOpen => exact right
  | opening role _ ih => exact .opening role (ih right)
  | closing _ ih => exact .closing (ih right)

/-- An even number of tags leaves it as it was whether a span is open. -/
theorem Alternate.last_eq {first last : Bool} {tags : List String}
    (h : Alternate first tags last) : last = (first ^^ decide (tags.length % 2 = 1)) := by
  induction h with
  | nil isOpen => exact (Bool.xor_false isOpen).symm
  | opening role _ ih =>
      rw [ih, List.length_cons]
      grind
  | closing _ ih =>
      rw [ih, List.length_cons]
      grind

theorem read_chars {chars : List Char} (h : '<' ∉ chars) (rest : List Char) :
    read none (chars ++ rest) = chars.map .char ++ read none rest := by
  induction chars with
  | nil => rfl
  | cons c others ih =>
      rw [List.mem_cons, not_or] at h
      rw [List.cons_append, read, if_neg (Ne.symm h.1), ih h.2]
      rfl

theorem read_body {body : List Char} (h : '>' ∉ body) (front rest : List Char) :
    read (some front) (body ++ '>' :: rest) = .tag (front ++ body) :: read none rest := by
  induction body generalizing front with
  | nil => rw [List.append_nil, List.nil_append, read, if_pos rfl]
  | cons c others ih =>
      rw [List.mem_cons, not_or] at h
      rw [List.cons_append, read, if_neg (Ne.symm h.1), ih h.2, List.append_assoc]
      rfl

theorem read_tag {body : List Char} (h : '>' ∉ body) (rest : List Char) :
    read none ('<' :: body ++ '>' :: rest) = .tag body :: read none rest := by
  rw [List.cons_append, read, if_pos rfl, read_body h]
  rfl

/-!
# Entities
-/

theorem not_mem_escapeMarkupChar (c : Char) : '<' ∉ escapeMarkupChar c := by
  rw [escapeMarkupChar]
  split
  · decide
  · rename_i other
    split
    · decide
    · split
      · decide
      · exact fun member => other (List.mem_singleton.mp member).symm

theorem unescapeChars_escapeMarkupChar (c : Char) (rest : List Char) :
    unescapeChars (escapeMarkupChar c ++ rest) = c :: unescapeChars rest := by
  rw [escapeMarkupChar]
  split
  · rename_i same
    rw [same]
    rfl
  · split
    · rename_i same
      rw [same]
      rfl
    · split
      · rename_i same
        rw [same]
        rfl
      · rename_i other
        rw [List.singleton_append, unescapeChars]
        · intro _ same
          exact absurd same other
        · intro _ same
          exact absurd same other
        · intro _ same
          exact absurd same other

theorem unescapeChars_flatMap (chars : List Char) :
    unescapeChars (chars.flatMap escapeMarkupChar) = chars := by
  induction chars with
  | nil => rfl
  | cons c rest ih => rw [List.flatMap_cons, unescapeChars_escapeMarkupChar, ih]

theorem unescape_escapeMarkup (text : String) : unescape (escapeMarkup text) = text := by
  rw [unescape, escapeMarkup, String.toList_ofList, unescapeChars_flatMap, String.ofList_toList]

theorem read_escaped (text rest : List Char) :
    read none (text.flatMap escapeMarkupChar ++ rest) =
      (text.flatMap escapeMarkupChar).map .char ++ read none rest := by
  apply read_chars
  intro member
  rcases List.mem_flatMap.mp member with ⟨c, _, written⟩
  exact not_mem_escapeMarkupChar c written

/-!
# Spans
-/

theorem read_closing (rest : List Char) :
    read none ("</span>".toList ++ rest) = .tag "/span".toList :: read none rest := by
  have body : '>' ∉ "/span".toList := by decide
  exact read_tag body rest

theorem read_opening (role : Role) (style : Style) (rest : List Char) :
    read none ((EmitterKind.markup.opening role style).toList ++ rest) =
      .tag ("span class=\"" ++ role.name ++ "\"").toList :: read none rest := by
  have body : '>' ∉ ("span class=\"" ++ role.name ++ "\"").toList := by
    have named : '>' ∉ role.name.toList := role.not_mem_name (by decide)
    simp only [String.toList_append, List.mem_append, not_or]
    exact ⟨⟨by decide, named⟩, by decide⟩
  have bracketed : (EmitterKind.markup.opening role style).toList ++ rest =
      '<' :: ("span class=\"" ++ role.name ++ "\"").toList ++ '>' :: rest := by
    have first : "<span class=\"".toList = '<' :: "span class=\"".toList := by decide
    have last : "\">".toList = "\"".toList ++ ['>'] := by decide
    have opened : EmitterKind.markup.opening role style =
        "<span class=\"" ++ role.name ++ "\">" := rfl
    rw [opened]
    simp only [String.toList_append, List.append_assoc, List.cons_append, List.nil_append, first,
      last]
  rw [bracketed, read_tag body]

/-!
# The markup of events
-/

/-- Markup that shows a text. Before it and after it a span is open if a style is shown. -/
def Shows (current next : Style) (chars text : List Char) : Prop :=
  ∃ pieces, (∀ rest, read none (chars ++ rest) = pieces ++ read none rest) ∧
    pieces.filterMap Piece.char? = text ∧
    Alternate (!current.isPlain) (pieces.filterMap Piece.tag?) (!next.isPlain)

namespace Shows

variable {first second third current next style : Style} {chars others text more : List Char}

theorem nil (current : Style) : Shows current current [] [] :=
  ⟨[], fun _ => rfl, rfl, .nil _⟩

theorem append (left : Shows first second chars text) (right : Shows second third others more) :
    Shows first third (chars ++ others) (text ++ more) := by
  rcases left with ⟨front, reads, shown, spans⟩
  rcases right with ⟨back, continues, follows, goes⟩
  refine ⟨front ++ back, ?_, ?_, ?_⟩
  · intro rest
    rw [List.append_assoc, reads, continues, List.append_assoc]
  · rw [List.filterMap_append, shown, follows]
  · rw [List.filterMap_append]
    exact spans.append goes

theorem read_eq (h : Shows current next chars text) :
    (read none chars).filterMap Piece.char? = text ∧
      Alternate (!current.isPlain) ((read none chars).filterMap Piece.tag?) (!next.isPlain) := by
  rcases h with ⟨pieces, reads, shown, spans⟩
  have whole := reads []
  have done : read none [] = [] := rfl
  rw [List.append_nil, done, List.append_nil] at whole
  rw [whole]
  exact ⟨shown, spans⟩

theorem escaped (current : Style) (text : List Char) :
    Shows current current (text.flatMap escapeMarkupChar) (text.flatMap escapeMarkupChar) := by
  refine ⟨(text.flatMap escapeMarkupChar).map .char, read_escaped text, ?_, ?_⟩
  · rw [List.filterMap_map]
    exact List.filterMap_some
  · have untagged : ((text.flatMap escapeMarkupChar).map Piece.char).filterMap Piece.tag? = [] := by
      rw [List.filterMap_eq_nil_iff]
      intro piece member
      rcases List.mem_map.mp member with ⟨c, _, rfl⟩
      rfl
    rw [untagged]
    exact .nil _

theorem closing (h : current ≠ .plain) : Shows current .plain "</span>".toList [] := by
  have shown : current.isPlain = false := decide_eq_false h
  refine ⟨[.tag "/span".toList], read_closing, rfl, ?_⟩
  rw [shown]
  exact .closing (.nil false)

theorem opening (role : Role) (h : style ≠ .plain) :
    Shows .plain style (EmitterKind.markup.opening role style).toList [] := by
  have shown : style.isPlain = false := decide_eq_false h
  refine ⟨[.tag ("span class=\"" ++ role.name ++ "\"").toList], read_opening role style, rfl, ?_⟩
  rw [shown, List.filterMap_cons_some (f := Piece.tag?) rfl, String.ofList_toList]
  exact .opening role (.nil true)

theorem resetActions (current : Style) :
    Shows current .plain (Action.chars (EmitterKind.markup.resetActions current)) [] := by
  rw [EmitterKind.resetActions]
  split
  · rename_i unstyled
    rw [unstyled]
    exact nil .plain
  · rename_i styled
    exact closing styled

/-- One event: it shows its text, and it closes the span that is open before it opens another. -/
theorem event (current : Style) (event : Event) :
    Shows current (EmitterKind.markup.shown current event)
      (Action.chars (EmitterKind.markup.actions current event))
      (event.text?.toList.flatMap fun text => text.toList.flatMap escapeMarkupChar) := by
  cases event with
  | write made =>
      have shown := escaped current made.string.toList
      rw [Event.text?, Option.toList_some, List.flatMap_singleton]
      have written : Action.chars (EmitterKind.markup.actions current (.write made)) =
          made.string.toList.flatMap escapeMarkupChar :=
        (Action.chars_put (escapeMarkup made.string)).trans String.toList_ofList
      rw [written]
      exact shown
  | reset =>
      rw [EmitterKind.shown_reset (by decide)]
      exact resetActions current
  | set role style =>
      rw [EmitterKind.shown_set (by decide)]
      show Shows current style (Action.chars (EmitterKind.markup.setActions current role style)) []
      rw [EmitterKind.setActions]
      split
      · rename_i same
        rw [same]
        exact nil current
      · split
        · rename_i plain
          rw [plain, List.append_nil]
          exact resetActions current
        · rename_i styled
          have opened : Shows .plain style
              (Action.chars [.put (EmitterKind.markup.opening role style), .become style]) [] := by
            have written : Action.chars
                [.put (EmitterKind.markup.opening role style), .become style] =
                  (EmitterKind.markup.opening role style).toList := List.append_nil _
            rw [written]
            exact opening role styled
          rw [Action.chars_append]
          exact (resetActions current).append opened

theorem output (current : Style) (events : List Event) :
    Shows current (EmitterKind.markup.shownAfter current events)
      (EmitterKind.markup.output current events)
      ((events.filterMap Event.text?).flatMap fun text =>
        text.toList.flatMap escapeMarkupChar) := by
  induction events generalizing current with
  | nil => exact nil current
  | cons one rest ih =>
      have texts : (one :: rest).filterMap Event.text? =
          one.text?.toList ++ rest.filterMap Event.text? := by
        cases one <;> rfl
      rw [texts, List.flatMap_append]
      exact (event current one).append (ih (EmitterKind.markup.shown current one))

end Shows

end Markup
end SourceReport
