import SourceReport.Proofs.Markup

/-!
# Enclosing spans

A markup emitter opens a span when the style changes, and names it for the role that is set then.
Other roles that are set in the same style after it stay within the same span. So the characters of
a text are in the span of the first of these roles, which need not be the role of the text.
-/

namespace SourceReport
namespace Role

/-- The tag that opens the span of a role, without its brackets. -/
def tag (role : Role) : String :=
  "span class=\"" ++ role.name ++ "\""

theorem toList_tag (role : Role) :
    role.tag.toList = "span class=\"".toList ++ role.name.toList ++ "\"".toList := by
  rw [← String.toList_append, ← String.toList_append]
  rfl

theorem tag_injective : Function.Injective tag := by
  intro role other same
  have chars := congrArg String.toList same
  rw [toList_tag, toList_tag] at chars
  apply name_injective
  apply String.toList_injective
  exact List.append_cancel_left (List.append_cancel_right chars)

/-- The tag of a role does not close a span. -/
theorem tag_ne_closing (role : Role) : role.tag ≠ "/span" := by
  intro same
  have chars := congrArg String.toList same
  have begun : "span class=\"".toList = 's' :: "pan class=\"".toList := by decide
  have closing : "/span".toList = '/' :: "span".toList := by decide
  rw [toList_tag, begun, closing] at chars
  exact absurd (List.cons.inj chars).1 (by decide)

end Role

namespace Markup

/-!
# Reading spans
-/

/-- The tags of the open spans after a piece, the innermost first. -/
def openTags (tags : List String) : Piece → List String
  | .tag body =>
      if String.ofList body = "/span" then tags.tail else String.ofList body :: tags
  | .char _ => tags

/-- The characters of pieces, each with the tag of the innermost span that it is in. -/
def enclosed (tags : List String) : List Piece → List (Char × Option String)
  | [] => []
  | .tag body :: rest => enclosed (openTags tags (.tag body)) rest
  | .char c :: rest => (c, tags.head?) :: enclosed tags rest

/-- The characters of a text outside of its tags, each with the tag of the innermost span that it is
in. -/
def characters (text : String) : List (Char × Option String) :=
  enclosed [] (read none text.toList)

theorem enclosed_append (tags : List String) (front back : List Piece) :
    enclosed tags (front ++ back) =
      enclosed tags front ++ enclosed (front.foldl openTags tags) back := by
  induction front generalizing tags with
  | nil => rfl
  | cons piece rest ih =>
      cases piece with
      | tag body => exact ih (openTags tags (.tag body))
      | char c => exact congrArg ((c, tags.head?) :: ·) (ih tags)

theorem enclosed_chars (tags : List String) (text : List Char) :
    enclosed tags (text.map .char) = text.map (·, tags.head?) ∧
      (text.map Piece.char).foldl openTags tags = tags := by
  induction text with
  | nil => exact ⟨rfl, rfl⟩
  | cons c rest ih => exact ⟨congrArg ((c, tags.head?) :: ·) ih.1, ih.2⟩

end Markup

/-!
# Spans of roles
-/

/-- An open span: the role that it is named for, the role that was set last, and the style in which
both were set. -/
structure Enclosure where
  span : Role
  own : Role
  style : Style
  styled : style ≠ .plain
  deriving DecidableEq, Repr

namespace Enclosure

/-- The span that is open after a role is set. A role in the style of the open span stays in it. -/
def set (enclosure : Option Enclosure) (role : Role) (style : Style) : Option Enclosure :=
  if styled : style = .plain then none
  else
    match enclosure with
    | none => some ⟨role, role, style, styled⟩
    | some enclosure =>
        if enclosure.style = style then some { enclosure with own := role }
        else some ⟨role, role, style, styled⟩

/-- The texts that events write, each with the span that is open at the time. -/
def texts (enclosure : Option Enclosure) : List Event → List (String × Option Enclosure)
  | [] => []
  | .write piece :: rest => (piece.string, enclosure) :: texts enclosure rest
  | .set role style :: rest => texts (set enclosure role style) rest
  | .reset :: rest => texts none rest

def shownStyle : Option Enclosure → Style
  | none => .plain
  | some enclosure => enclosure.style

def tags (enclosure : Option Enclosure) : List String :=
  enclosure.toList.map fun enclosure => enclosure.span.tag

/-- The escaped characters of texts, each with the tag of one of the roles of the span that it is
in. -/
def characters (role : Enclosure → Role) (texts : List (String × Option Enclosure)) :
    List (Char × Option String) :=
  texts.flatMap fun (text, enclosure) =>
    (text.toList.flatMap escapeMarkupChar).map (·, enclosure.map fun one => (role one).tag)

theorem head?_tags (enclosure : Option Enclosure) :
    (tags enclosure).head? = enclosure.map fun enclosure => enclosure.span.tag := by
  cases enclosure <;> rfl

variable {role : Role} {style : Style}

theorem set_plain (enclosure : Option Enclosure) (plain : style = .plain) :
    set enclosure role style = none :=
  dif_pos plain

theorem set_none (styled : style ≠ .plain) :
    set none role style = some ⟨role, role, style, styled⟩ :=
  dif_neg styled

theorem set_same {enclosure : Enclosure} (same : enclosure.style = style) :
    set (some enclosure) role style = some { enclosure with own := role } := by
  have styled : style ≠ .plain := same ▸ enclosure.styled
  exact (dif_neg styled).trans (if_pos same)

theorem set_other {enclosure : Enclosure} (styled : style ≠ .plain)
    (other : enclosure.style ≠ style) :
    set (some enclosure) role style = some ⟨role, role, style, styled⟩ :=
  (dif_neg styled).trans (if_neg other)

theorem shownStyle_set (enclosure : Option Enclosure) (role : Role) (style : Style) :
    shownStyle (set enclosure role style) = style := by
  by_cases plain : style = .plain
  · rw [set_plain enclosure plain, plain]
    rfl
  · cases enclosure with
    | none => rw [set_none plain, shownStyle]
    | some enclosure =>
        by_cases same : enclosure.style = style
        · rw [set_same same]
          exact same
        · rw [set_other plain same, shownStyle]

end Enclosure

/-!
# The markup of events
-/

namespace Markup

/-- Markup that is read as some characters in spans, from one list of open tags to another. -/
def Encloses (tags next : List String) (chars : List Char) (shown : List (Char × Option String)) :
    Prop :=
  ∃ pieces, (∀ rest, read none (chars ++ rest) = pieces ++ read none rest) ∧
    enclosed tags pieces = shown ∧ pieces.foldl openTags tags = next

namespace Encloses

variable {first second third : List String} {chars others : List Char}
  {shown more : List (Char × Option String)}

theorem nil (tags : List String) : Encloses tags tags [] [] :=
  ⟨[], fun _ => rfl, rfl, rfl⟩

theorem append (left : Encloses first second chars shown)
    (right : Encloses second third others more) :
    Encloses first third (chars ++ others) (shown ++ more) := by
  rcases left with ⟨front, reads, shows, opens⟩
  rcases right with ⟨back, continues, follows, goes⟩
  refine ⟨front ++ back, ?_, ?_, ?_⟩
  · intro rest
    rw [List.append_assoc, reads, continues, List.append_assoc]
  · rw [enclosed_append, shows, opens, follows]
  · rw [List.foldl_append, opens, goes]

theorem enclosed_eq (h : Encloses first second chars shown) :
    enclosed first (read none chars) = shown := by
  rcases h with ⟨pieces, reads, shows, -⟩
  have whole := reads []
  have done : read none [] = [] := rfl
  rw [List.append_nil, done, List.append_nil] at whole
  rw [whole, shows]

theorem escaped (tags : List String) (text : List Char) :
    Encloses tags tags (text.flatMap escapeMarkupChar)
      ((text.flatMap escapeMarkupChar).map (·, tags.head?)) :=
  ⟨(text.flatMap escapeMarkupChar).map .char, read_escaped text, (enclosed_chars tags _).1,
    (enclosed_chars tags _).2⟩

theorem closing (tag : String) : Encloses [tag] [] "</span>".toList [] :=
  ⟨[.tag "/span".toList], read_closing, rfl, rfl⟩

theorem opening (role : Role) (style : Style) :
    Encloses [] [role.tag] (EmitterKind.markup.opening role style).toList [] := by
  refine ⟨[.tag role.tag.toList], read_opening role style, rfl, ?_⟩
  rw [List.foldl_cons, openTags, String.ofList_toList, if_neg role.tag_ne_closing]
  rfl

theorem resetActions (enclosure : Option Enclosure) :
    Encloses (Enclosure.tags enclosure) []
      (Action.chars (EmitterKind.markup.resetActions (Enclosure.shownStyle enclosure))) [] := by
  cases enclosure with
  | none => exact nil []
  | some enclosure =>
      rw [EmitterKind.resetActions, Enclosure.shownStyle, if_neg enclosure.styled]
      exact closing enclosure.span.tag

/-- A span stays open for a role in its style. Else it is closed before another one is opened. -/
theorem setActions (enclosure : Option Enclosure) (role : Role) (style : Style) :
    Encloses (Enclosure.tags enclosure) (Enclosure.tags (Enclosure.set enclosure role style))
      (Action.chars
        (EmitterKind.markup.setActions (Enclosure.shownStyle enclosure) role style)) [] := by
  have opened : Encloses [] [role.tag]
      (Action.chars [.put (EmitterKind.markup.opening role style), .become style]) [] := by
    have written : Action.chars [.put (EmitterKind.markup.opening role style), .become style] =
        (EmitterKind.markup.opening role style).toList := List.append_nil _
    rw [written]
    exact opening role style
  rw [EmitterKind.setActions_eq (.inr rfl)]
  by_cases plain : style = .plain
  · rw [Enclosure.set_plain enclosure plain, if_pos plain, List.append_nil]
    split
    · rename_i same
      cases enclosure with
      | none => exact nil []
      | some enclosure => exact absurd (same.symm.trans plain) enclosure.styled
    · exact resetActions enclosure
  · rw [if_neg plain]
    cases enclosure with
    | none =>
        rw [Enclosure.set_none plain, Enclosure.shownStyle, if_neg plain]
        exact opened
    | some enclosure =>
        rw [Enclosure.shownStyle]
        by_cases same : enclosure.style = style
        · rw [Enclosure.set_same same, if_pos same.symm]
          exact nil _
        · rw [Enclosure.set_other plain same, if_neg (Ne.symm same), Action.chars_append]
          exact (resetActions (some enclosure)).append opened

theorem output (enclosure : Option Enclosure) (events : List Event) :
    ∃ next, Encloses (Enclosure.tags enclosure) next
      (EmitterKind.markup.output (Enclosure.shownStyle enclosure) events)
      (Enclosure.characters Enclosure.span (Enclosure.texts enclosure events)) := by
  induction events generalizing enclosure with
  | nil => exact ⟨_, nil _⟩
  | cons event rest ih =>
      rw [EmitterKind.output]
      cases event with
      | write made =>
          rcases ih enclosure with ⟨next, others⟩
          have written : Action.chars (EmitterKind.markup.actions (Enclosure.shownStyle enclosure)
              (.write made)) = made.string.toList.flatMap escapeMarkupChar :=
            (Action.chars_put (escapeMarkup made.string)).trans String.toList_ofList
          rw [written]
          refine ⟨next, Encloses.append ?_ others⟩
          have shown := escaped (Enclosure.tags enclosure) made.string.toList
          rwa [Enclosure.head?_tags] at shown
      | set role style =>
          rcases ih (Enclosure.set enclosure role style) with ⟨next, others⟩
          rw [Enclosure.shownStyle_set] at others
          rw [EmitterKind.shown_set (by decide)]
          exact ⟨next, (setActions enclosure role style).append others⟩
      | reset =>
          rcases ih none with ⟨next, others⟩
          rw [EmitterKind.shown_reset (by decide)]
          exact ⟨next, (resetActions enclosure).append others⟩

end Encloses

/-- The characters of a text are in the span that is open when the text is written. -/
theorem characters_run {sink : Sink} (accepts : ({ kind := .markup, sink } : Emitter).Accepts)
    (empty : sink.written = "") (events : List Event) :
    characters (({ kind := .markup, sink } : Emitter).run events).1.sink.written =
      Enclosure.characters Enclosure.span (Enclosure.texts none events) := by
  rcases Encloses.output none events with ⟨next, encloses⟩
  rw [characters, (Emitter.leads_run accepts events).written_eq, empty]
  exact encloses.enclosed_eq

end Markup

/-!
# Spans of their own
-/

/-- The texts that events write, each with the role that was set last and not reset since, if it was
set in a style. -/
def Event.inStyledRoles (role : Option Role) : List Event → List (String × Option Role)
  | [] => []
  | .write piece :: rest => (piece.string, role) :: inStyledRoles role rest
  | .set next style :: rest =>
      inStyledRoles (if style = .plain then none else some next) rest
  | .reset :: rest => inStyledRoles none rest

namespace Enclosure

theorem map_own_set (enclosure : Option Enclosure) (role : Role) (style : Style) :
    (set enclosure role style).map own = if style = .plain then none else some role := by
  by_cases plain : style = .plain
  · rw [set_plain enclosure plain, if_pos plain]
    rfl
  · rw [if_neg plain]
    cases enclosure with
    | none =>
        rw [set_none plain]
        rfl
    | some enclosure =>
        by_cases same : enclosure.style = style
        · rw [set_same same]
          rfl
        · rw [set_other plain same]
          rfl

/-- The role of a text does not depend on the spans. -/
theorem map_own_texts (enclosure : Option Enclosure) (events : List Event) :
    (texts enclosure events).map (Prod.map id (Option.map own)) =
      Event.inStyledRoles (enclosure.map own) events := by
  induction events generalizing enclosure with
  | nil => rfl
  | cons event rest ih =>
      cases event with
      | write piece => exact congrArg ((piece.string, enclosure.map own) :: ·) (ih enclosure)
      | set role style =>
          rw [texts, Event.inStyledRoles, ← map_own_set enclosure]
          exact ih (set enclosure role style)
      | reset => exact ih none

theorem escaped_ne_nil {text : String} (h : text ≠ "") :
    text.toList.flatMap escapeMarkupChar ≠ [] := by
  have unescaped := Markup.unescapeChars_flatMap text.toList
  intro empty
  rw [empty] at unescaped
  exact h (String.toList_injective unescaped.symm)

theorem map_escaped_iff (text : String) (left right : Option String) :
    ((text.toList.flatMap escapeMarkupChar).map (·, left) =
        (text.toList.flatMap escapeMarkupChar).map (·, right)) ↔
      (text ≠ "" → left = right) := by
  constructor
  · intro same nonempty
    rcases List.exists_cons_of_ne_nil (escaped_ne_nil nonempty) with ⟨c, rest, shown⟩
    rw [shown] at same
    exact (Prod.mk.inj (List.cons.inj same).1).2
  · intro agree
    by_cases empty : text = ""
    · rw [empty]
      rfl
    · rw [agree empty]

theorem characters_cons (role : Enclosure → Role) (text : String) (enclosure : Option Enclosure)
    (rest : List (String × Option Enclosure)) :
    characters role ((text, enclosure) :: rest) =
      (text.toList.flatMap escapeMarkupChar).map (·, enclosure.map fun one => (role one).tag) ++
        characters role rest := by
  rw [characters, List.flatMap_cons]
  rfl

/-- A character is in the span of a role exactly if a text with it is. -/
theorem mem_characters_iff {texts : List (String × Option Enclosure)} {c : Char} {role : Role} :
    (c, some role.tag) ∈ characters span texts ↔
      ∃ text enclosure, (text, some enclosure) ∈ texts ∧
        c ∈ text.toList.flatMap escapeMarkupChar ∧ enclosure.span = role := by
  rw [characters, List.mem_flatMap]
  constructor
  · rintro ⟨⟨text, enclosure⟩, member, shown⟩
    rcases List.mem_map.mp shown with ⟨other, among, equal⟩
    rcases Prod.mk.inj equal with ⟨rfl, tagged⟩
    rcases Option.map_eq_some_iff.mp tagged with ⟨one, rfl, same⟩
    exact ⟨text, one, member, among, Role.tag_injective same⟩
  · rintro ⟨text, enclosure, member, among, rfl⟩
    exact ⟨(text, some enclosure), member, List.mem_map.mpr ⟨c, among, rfl⟩⟩

theorem map_tag_iff (enclosure : Option Enclosure) :
    (enclosure.map fun one => one.span.tag) = (enclosure.map fun one => one.own.tag) ↔
      ∀ one, enclosure = some one → one.span = one.own := by
  cases enclosure with
  | none =>
      refine ⟨fun _ one equal => ?_, fun _ => rfl⟩
      cases equal
  | some enclosure =>
      rw [Option.map_some, Option.map_some, Option.some.injEq, Role.tag_injective.eq_iff]
      constructor
      · intro same one equal
        rw [← Option.some.inj equal]
        exact same
      · intro own
        exact own enclosure rfl

theorem characters_cons_own_iff (text : String) (enclosure : Option Enclosure)
    (rest : List (String × Option Enclosure)) :
    characters span ((text, enclosure) :: rest) = characters own ((text, enclosure) :: rest) ↔
      (text ≠ "" → ∀ one, enclosure = some one → one.span = one.own) ∧
        characters span rest = characters own rest := by
  have lengths : ∀ left right : Option String,
      ((text.toList.flatMap escapeMarkupChar).map (·, left)).length =
        ((text.toList.flatMap escapeMarkupChar).map (·, right)).length := by
    intro left right
    rw [List.length_map, List.length_map]
  rw [characters_cons, characters_cons, ← map_tag_iff, ← map_escaped_iff]
  constructor
  · intro same
    exact List.append_inj same (lengths _ _)
  · rintro ⟨head, tail⟩
    rw [head, tail]

/-- All texts are in spans of their own roles exactly if their characters are. -/
theorem characters_own_iff (texts : List (String × Option Enclosure)) :
    characters span texts = characters own texts ↔
      ∀ text enclosure, (text, some enclosure) ∈ texts → text ≠ "" →
        enclosure.span = enclosure.own := by
  induction texts with
  | nil =>
      have empty : ∀ role, characters role [] = [] := fun _ => rfl
      rw [empty, empty]
      exact ⟨fun _ _ _ member => absurd member List.not_mem_nil, fun _ => rfl⟩
  | cons first rest ih =>
      rcases first with ⟨text, enclosure⟩
      rw [characters_cons_own_iff, ih]
      constructor
      · rintro ⟨head, tail⟩ other one member nonempty
        rcases List.mem_cons.mp member with equal | member
        · rcases Prod.mk.inj equal with ⟨rfl, rfl⟩
          exact head nonempty one rfl
        · exact tail other one member nonempty
      · intro all
        refine ⟨?_, fun other one member => all other one (List.mem_cons_of_mem _ member)⟩
        rintro nonempty one rfl
        exact all text one List.mem_cons_self nonempty

end Enclosure
end SourceReport
