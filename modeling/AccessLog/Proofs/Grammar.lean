import AccessLog.Program
import AccessLog.Proofs.Tables
import Mathlib.Algebra.Group.Nat.Defs
import Mathlib.Data.List.Chain
import Mathlib.Data.List.Forall2

/-!
# The grammar of formats

What a format may look like and what it means, said without a reader. A format is a row of
**pieces**, each with a meaning of its own, which is one instruction:

- a run of text without percent signs means itself;
- `%%` means a percent sign;
- `%NAME(PARAMETER):LENGTH%` means the query of the command `NAME`, with the parameter and the
  limit, where the brackets and the length may be missing.

Nothing here looks for a character, splits a text or decides between readings: a relation holds
of a spelling and what it means, and its constructors are the ways to write one. The one thing
said about neighbours is that two runs of text do not stand next to each other (`Format`), since
together they would be one run. That each format has at most one meaning is therefore no
matter of definition, and neither is that a compiler finds it.
-/

set_option autoImplicit false

namespace AccessLog

/-- Whether a command of this arity may have this parameter; an empty one counts as none. -/
def Arity.Admits : Arity → List Char → Prop
  | .none, parameter => parameter = []
  | .required, parameter => parameter ≠ []
  | .optional, _ => True

namespace Grammar

/-- A parameter in parentheses. It may hold anything but a percent sign or a closing
parenthesis; no parentheses at all are as good as empty ones. -/
inductive Brackets : List Char → List Char → Prop where
  | absent : Brackets [] []
  | around {parameter : List Char} (hpercent : '%' ∉ parameter) (hend : ')' ∉ parameter) :
    Brackets ('(' :: (parameter ++ [')'])) parameter

/-- A colon and a length: one or more digits, leading zeros allowed. Without a length there is
no limit. -/
inductive Length : List Char → Option Nat → Prop where
  | absent : Length [] none
  | digits {digits : List Char} (hne : digits ≠ []) (hdigits : ∀ c ∈ digits, c.isDigit = true)
    (hbound : Nat.ofDigitChars 10 digits 0 < 2 ^ 64) :
    Length (':' :: digits) (some (Nat.ofDigitChars 10 digits 0))

/-- `NAME` or `NAME?NAME` in the namespace `F`. A name is not empty and holds no question mark;
each of the two refers to a member or to itself on its own account. -/
inductive Names {F : Type} [Namespace F] : List Char → Selector F → Prop where
  | one {a : List Char} {ref : FieldRef F} (hne : a ≠ []) (hplain : '?' ∉ a)
    (href : FieldRef.Refers (String.ofList a) ref) : Names a ⟨ref, none⟩
  | two {a b : List Char} {ref other : FieldRef F} (hne : a ≠ []) (hplain : '?' ∉ a)
    (href : FieldRef.Refers (String.ofList a) ref) (hne' : b ≠ []) (hplain' : '?' ∉ b)
    (href' : FieldRef.Refers (String.ofList b) other) : Names (a ++ '?' :: b) ⟨ref, some other⟩

/-- What a command asks for with a parameter. A pattern is taken as it is; the names of a
selector belong to the namespace of the command. -/
inductive Asks : Command → List Char → Query → Prop where
  | startTime (pattern : List Char) : Asks .startTime pattern (.startTime (String.ofList pattern))
  | int (metric : IntMetric) (parameter : List Char) : Asks (.int metric) parameter (.int metric)
  | str (metric : StrMetric) (parameter : List Char) : Asks (.str metric) parameter (.str metric)
  | flag (f : Flag) (parameter : List Char) : Asks (.flag f) parameter (.flag f)
  | header (side : Side) {parameter : List Char} {selector : Selector HttpField}
    (h : Names parameter selector) : Asks (.header side) parameter (.header side selector)
  | trailer {parameter : List Char} {selector : Selector Verbatim}
    (h : Names parameter selector) : Asks .trailer parameter (.trailer selector)
  | body (side : Side) {parameter : List Char} {selector : Selector Verbatim}
    (h : Names parameter selector) : Asks (.body side) parameter (.body side selector)
  | uri {parameter : List Char} {selector : Selector UriField}
    (h : Names parameter selector) : Asks .uri parameter (.uri selector)
  | routerInfo {parameter : List Char} {selector : Selector Verbatim}
    (h : Names parameter selector) : Asks .routerInfo parameter (.routerInfo selector)
  | middleware (stage : Stage) {parameter : List Char} {selector : Selector MiddlewareField}
    (h : Names parameter selector) :
    Asks (.middleware stage) parameter (.middleware stage selector)

/-- The body of a field: the name of a command, its parameter and its length. -/
inductive Field : List Char → Instruction → Prop where
  | mk (command : Command) {brackets parameter length : List Char} {limit : Option Nat}
    {query : Query} (hbrackets : Brackets brackets parameter) (hlength : Length length limit)
    (harity : command.arity.Admits parameter) (hasks : Asks command parameter query) :
    Field (command.name.toList ++ (brackets ++ length)) ⟨.field query, limit⟩

/-- A run of text: not empty and without percent signs. -/
def IsRun (cs : List Char) : Prop := cs ≠ [] ∧ '%' ∉ cs

/-- A piece of a format and the instruction that it means. -/
inductive Piece : List Char → Instruction → Prop where
  | run {run : List Char} (h : IsRun run) : Piece run (.literal (String.ofList run))
  | percent : Piece ['%', '%'] (.literal "%")
  | field {body : List Char} {i : Instruction} (h : Field body i) :
    Piece ('%' :: (body ++ ['%'])) i

/-- Pieces that may follow each other: not both are runs of text. -/
def Apart (a b : List Char) : Prop := ¬ (IsRun a ∧ IsRun b)

/-- **A format and what it means**: a concatenation of pieces whose meanings, in order, are the
instructions, with no two runs of text side by side. -/
def Format (cs : List Char) (instructions : List Instruction) : Prop :=
  ∃ pieces : List (List Char), pieces.flatten = cs ∧ List.Forall₂ Piece pieces instructions ∧
    pieces.IsChain Apart

/-! ## Where a piece begins and ends -/

theorem Length.no_percent {length : List Char} {limit : Option Nat} (h : Length length limit) :
    '%' ∉ length := by
  cases h with
  | absent => exact List.not_mem_nil
  | digits _ hdigits _ =>
    intro hmem
    rcases List.mem_cons.mp hmem with hcolon | hmem
    · exact absurd hcolon (by decide)
    · exact absurd (hdigits _ hmem) (by decide)

theorem Length.ne_paren {length : List Char} {limit : Option Nat} (h : Length length limit)
    (inside : List Char) : length ≠ '(' :: inside := by
  rintro rfl
  cases h

theorem Brackets.no_percent {brackets parameter : List Char} (h : Brackets brackets parameter) :
    '%' ∉ brackets := by
  cases h with
  | absent => exact List.not_mem_nil
  | around hpercent _ =>
    intro hmem
    simp [hpercent] at hmem

/-- The body of a field holds no percent sign, so the field ends at the first one behind it. -/
theorem Field.no_percent {body : List Char} {i : Instruction} (h : Field body i) :
    '%' ∉ body := by
  cases h with
  | mk command hbrackets hlength _ _ =>
    intro hmem
    rcases List.mem_append.mp hmem with hname | hmem
    · exact command.plain_name.2.2.2 hname
    · rcases List.mem_append.mp hmem with hmem | hmem
      · exact hbrackets.no_percent hmem
      · exact hlength.no_percent hmem

/-- The body of a field is not empty, since no command has the empty name. -/
theorem not_field_nil {i : Instruction} : ¬ Field [] i := by
  intro h
  generalize hbody : ([] : List Char) = body at h
  cases h with
  | mk command _ _ _ _ =>
    have hname : command.name.toList = [] := (List.append_eq_nil_iff.mp hbody.symm).1
    exact command.plain_name.1 hname

/-- A piece that is no run of text begins with a percent sign. -/
theorem Piece.begins {p : List Char} {i : Instruction} (h : Piece p i) :
    IsRun p ∨ ∃ after, p = '%' :: after := by
  cases h with
  | run hrun => exact .inl hrun
  | percent => exact .inr ⟨_, rfl⟩
  | field _ => exact .inr ⟨_, rfl⟩

theorem not_isRun_percent (after : List Char) : ¬ IsRun ('%' :: after) :=
  fun h => h.2 List.mem_cons_self

end Grammar

end AccessLog
