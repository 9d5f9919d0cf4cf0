import SourceReport.Event

/-!
# Texts in their roles

The events of a row write texts, each in the role that was set last and not reset since. The texts
of source characters are in the role of a primary label or in none. Few roles follow one another
without a reset between them.
-/

namespace SourceReport

/-- The roles that may be set one after the other in a report on a severity: the message follows its
header, and labels follow each other. -/
inductive Role.Precedes (severity : Severity) : Role → Role → Prop
  | message : Precedes severity (.header severity) .headerMessage
  | label (style next : LabelStyle) : Precedes severity (.label severity style) (.label severity next)

namespace Event

/-- The texts that events write, each with the role that is set at the time. -/
def inRoles (role : Option Role) : List Event → List (String × Option Role)
  | [] => []
  | .write piece :: rest => (piece.string, role) :: inRoles role rest
  | .set next _ :: rest => inRoles (some next) rest
  | .reset :: rest => inRoles none rest

/-- The role that is set after events. -/
def roleAfter (role : Option Role) : List Event → Option Role
  | [] => role
  | .write _ :: rest => roleAfter role rest
  | .set next _ :: rest => roleAfter (some next) rest
  | .reset :: rest => roleAfter none rest

theorem inRoles_append (role : Option Role) (front back : List Event) :
    inRoles role (front ++ back) = inRoles role front ++ inRoles (roleAfter role front) back := by
  induction front generalizing role with
  | nil => rfl
  | cons event rest ih =>
      cases event with
      | write piece => exact congrArg ((piece.string, role) :: ·) (ih role)
      | set next style => exact ih (some next)
      | reset => exact ih none

/-- Events that break off show the first texts of all. -/
theorem inRoles_prefix {front events : List Event} (role : Option Role) (h : front <+: events) :
    inRoles role front <+: inRoles role events := by
  rcases h with ⟨back, rfl⟩
  rw [inRoles_append]
  exact List.prefix_append _ _

theorem roleAfter_append (role : Option Role) (front back : List Event) :
    roleAfter role (front ++ back) = roleAfter (roleAfter role front) back := by
  induction front generalizing role with
  | nil => rfl
  | cons event rest ih =>
      cases event with
      | write piece => exact ih role
      | set next style => exact ih (some next)
      | reset => exact ih none

/-- An event that sets a role in the style that the theme gives to it. -/
def IsOf (theme : Theme) : Event → Prop
  | .write _ => True
  | .set role style => style = theme.style role
  | .reset => True

/-- Whether a role is set only after a reset, or after a role that may precede it. -/
def IsOrderly (precedes : Role → Role → Prop) : Option Role → List Event → Prop
  | _, [] => True
  | role, .write _ :: rest => IsOrderly precedes role rest
  | role, .set next _ :: rest =>
      (∀ before, role = some before → precedes before next) ∧ IsOrderly precedes (some next) rest
  | _, .reset :: rest => IsOrderly precedes none rest

theorem IsOrderly.append {precedes : Role → Role → Prop} {role : Option Role}
    {front back : List Event} (left : IsOrderly precedes role front)
    (right : IsOrderly precedes (roleAfter role front) back) :
    IsOrderly precedes role (front ++ back) := by
  induction front generalizing role with
  | nil => exact right
  | cons event rest ih =>
      cases event with
      | write piece => exact ih left right
      | set next style => exact ⟨left.1, ih left.2 right⟩
      | reset => exact ih left right

theorem IsOrderly.mono {precedes others : Role → Role → Prop}
    (weaker : ∀ before next, precedes before next → others before next) {role : Option Role}
    {events : List Event} (h : IsOrderly precedes role events) : IsOrderly others role events := by
  induction events generalizing role with
  | nil => trivial
  | cons event rest ih =>
      cases event with
      | write piece => exact ih h
      | set next style => exact ⟨fun before same => weaker _ _ (h.1 before same), ih h.2⟩
      | reset => exact ih h

end Event

namespace Pencil

open Event

variable (pencil : Pencil)

/-- Events before which one role is set and after which another one is. They set roles in the styles
of the theme only, and in order. -/
structure Passes (before : Option Role) (events : List Event) (after : Option Role) : Prop where
  roleAfter_eq : roleAfter before events = after
  isOf : ∀ event ∈ events, event.IsOf pencil.theme
  isOrderly : IsOrderly (Role.Precedes pencil.severity) before events

variable {pencil}

namespace Passes

variable {first second third : Option Role} {front back : List Event}

theorem nil (role : Option Role) : pencil.Passes role [] role :=
  ⟨rfl, List.forall_mem_nil _, trivial⟩

theorem append (left : pencil.Passes first front second) (right : pencil.Passes second back third) :
    pencil.Passes first (front ++ back) third where
  roleAfter_eq := by
    rw [roleAfter_append, left.roleAfter_eq, right.roleAfter_eq]
  isOf := List.forall_mem_append.mpr ⟨left.isOf, right.isOf⟩
  isOrderly := left.isOrderly.append (left.roleAfter_eq.symm ▸ right.isOrderly)

theorem write (role : Option Role) (piece : Piece) : pencil.Passes role [.write piece] role :=
  ⟨rfl, List.forall_mem_singleton.mpr trivial, trivial⟩

theorem write_cons (piece : Piece) (h : pencil.Passes first front second) :
    pencil.Passes first (.write piece :: front) second :=
  (write first piece).append h

theorem set (role : Role) : pencil.Passes none [pencil.set role] (some role) :=
  ⟨rfl, List.forall_mem_singleton.mpr rfl, nofun, trivial⟩

theorem follow {role next : Role} (h : Role.Precedes pencil.severity role next) :
    pencil.Passes (some role) [pencil.set next] (some next) :=
  ⟨rfl, List.forall_mem_singleton.mpr rfl, fun _ same => Option.some.inj same ▸ h, trivial⟩

theorem reset (role : Option Role) : pencil.Passes role [.reset] none :=
  ⟨rfl, List.forall_mem_singleton.mpr trivial, trivial⟩

theorem flatMap {α : Type} {parts : List α} {draw : α → List Event}
    (h : ∀ part ∈ parts, pencil.Passes first (draw part) first) :
    pencil.Passes first (parts.flatMap draw) first := by
  induction parts with
  | nil => exact nil first
  | cons part rest ih =>
      rw [List.forall_mem_cons] at h
      rw [List.flatMap_cons]
      exact h.1.append (ih h.2)

end Passes

/-!
# The left side of a row
-/

theorem passes_within (role : Role) (piece : Piece) :
    pencil.Passes none (pencil.within role piece) none :=
  (Passes.set role).append ((Passes.reset (some role)).write_cons piece)

theorem passes_inLabel (style : LabelStyle) (piece : Piece) :
    pencil.Passes none (pencil.inLabel style piece) none :=
  passes_within _ piece

theorem passes_outerGutter (padding : Nat) : pencil.Passes none (outerGutter padding) none := by
  rw [outerGutter]
  split
  · exact (Passes.write none _).append (Passes.write none _)
  · exact Passes.write none _

theorem passes_gutter (cells : List GutterCell) :
    pencil.Passes none (pencil.gutter cells) none := by
  apply Passes.flatMap
  intro cell _
  cases cell with
  | blank => exact Passes.write none _
  | bar style => exact (passes_inLabel _ _).write_cons _
  | corner stop style => exact (passes_inLabel _ _).write_cons _
  | run stop style => exact passes_inLabel _ _
  | crossing under style => exact (passes_inLabel _ _).append (passes_inLabel _ _)

theorem passes_leftSide (padding : Nat) (cells : List GutterCell) :
    pencil.Passes none (pencil.leftSide padding cells) none :=
  ((passes_outerGutter padding).append (passes_within _ _)).append (passes_gutter cells)

theorem passes_sourceSide (padding : Nat) (number : Int) (cells : List GutterCell) :
    pencil.Passes none (pencil.sourceSide padding number cells) none :=
  ((((passes_within _ _).append (Passes.write none _)).append (passes_within _ _)).append
    (passes_gutter cells)).append (Passes.write none _)

variable (pencil)

/-!
# Source characters
-/

/-- The role of a source character. -/
def cellRole (primary : Bool) : Option Role :=
  if primary then some (.label pencil.severity .primary) else none

theorem inRoles_highlight (before after : Bool) :
    inRoles (pencil.cellRole before) (pencil.highlight before after) = [] := by
  cases before <;> cases after <;> rfl

theorem passes_highlight (before after : Bool) :
    pencil.Passes (pencil.cellRole before) (pencil.highlight before after)
      (pencil.cellRole after) := by
  cases before with
  | false =>
      cases after with
      | false => exact Passes.nil none
      | true => exact Passes.set _
  | true =>
      cases after with
      | false => exact Passes.reset _
      | true => exact Passes.nil _

/-- The role is switched exactly where covered characters begin and end, and none is left set. -/
theorem inRoles_sourceCells (before : Bool) (cells : List SourceCell) (rest : List Event) :
    inRoles (pencil.cellRole before) (pencil.sourceCells before cells ++ rest) =
      cells.map (fun cell => ((sourceText cell.placed).string, pencil.cellRole cell.primary)) ++
        inRoles none rest := by
  induction cells generalizing before with
  | nil => cases before <;> rfl
  | cons cell others ih =>
      rw [sourceCells, List.append_assoc, inRoles_append, inRoles_highlight,
        (pencil.passes_highlight before cell.primary).roleAfter_eq, List.nil_append,
        List.cons_append, inRoles, ih]
      rfl

/-- The texts of a source row: its left side, its characters and the line end. -/
theorem inRoles_sourceRow (padding : Nat) (number : Int) (gutter : List GutterCell)
    (cells : List SourceCell) :
    inRoles none (pencil.row padding (.source number gutter cells)) =
      inRoles none (pencil.sourceSide padding number gutter) ++
        cells.map (fun cell => ((sourceText cell.placed).string, pencil.cellRole cell.primary)) ++
        [("\n", none)] := by
  have chars := pencil.inRoles_sourceCells false cells [.write "\n"]
  rw [row, content, List.append_assoc, inRoles_append,
    (passes_sourceSide padding number gutter).roleAfter_eq, List.append_assoc]
  exact congrArg (_ ++ ·) chars

end Pencil
end SourceReport
