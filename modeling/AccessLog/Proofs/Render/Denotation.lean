import AccessLog.Record

/-!
# What a program writes

A line is written from left to right, and for each instruction there is a text that does not
depend on the line at all (`Instruction.written`): the literal text, or the answer to the query
as a text, cut to the first characters that the limit allows, or the placeholder. **A render is
these texts in order, each with the delimiter behind it, at the end of what was there**
(`renderInto_eq_append`).

Two things make this more than reading off the renderer. It threads the line through every
instruction, so that all of it is at the disposal of each; and a number is not cut before it is
written but afterwards, where it stands, by the byte at which it began. The first is an induction
over the program. The second is `clipFrom_append`: the bytes of the line are where the line ends,
so a cut counted from there cannot reach into it, whatever characters it holds.

The step and the run are stated for any lawful monad of answers, so they hold as well for a
provider that writes down what it is asked or that may give up.
-/

set_option autoImplicit false

namespace AccessLog

/-! ## The text of an answer -/

/-- The first characters of a value, as many as the limit says if there are so many. -/
def Render.firstCharacters (limit : Option Nat) (value : String) : String :=
  match limit with
  | none => value
  | some n => String.ofList (value.toList.take (min n value.toList.length))

/-- An answer as text, when there is one. Numbers are written in base ten with their sign, flags
as `true` or `false`, everything else as it is given. -/
def Query.shown : (query : Query) → query.Answer → Option String
  | .startTime _, time => some time
  | .int _, number => number.map toString
  | .flag _, on => on.map toString
  | .str _, text | .header _ _, text | .trailer _, text | .body _ _, text | .uri _, text
  | .routerInfo _, text | .middleware _ _, text => text

/-- What is written for an answer: its first characters, or else the whole placeholder. -/
def Render.wording (limit : Option Nat) (placeholder : String) : Option String → String
  | some value => firstCharacters limit value
  | none => placeholder

/-- What an instruction writes, whatever stands in the line before it. -/
def Instruction.written {m : Type → Type} [Monad m] (i : Instruction) (provider : Provider m)
    (placeholder : String) : m String :=
  match i.op with
  | .text literal => pure literal
  | .field query =>
    (fun answer => Render.wording i.limit placeholder (query.shown answer)) <$> provider query

namespace Render

/-! ## One instruction -/

theorem clip_eq_firstCharacters (limit : Option Nat) (value : String) :
    clip limit value = firstCharacters limit value := by
  cases limit with
  | none => rfl
  | some n =>
    have htake : value.toList.take n = value.toList.take (min n value.toList.length) :=
      List.take_eq_take_min
    simp only [clip, firstCharacters, ← htake]

/-- **A cut where a value stands is a cut of the value.** What was in the line before it is
neither removed nor changed. -/
theorem clipFrom_append (line : String) (limit : Option Nat) (value : String) :
    clipFrom line.utf8ByteSize limit (line ++ value) = line ++ clip limit value := by
  unfold clipFrom
  rw [String.toList_append, ← Text.byteSize_toList, Text.splitAtByte_append]
  simp only [String.ofList_toList]

theorem put_eq_append (line placeholder : String) (limit : Option Nat) (value : Option String) :
    put line placeholder limit value = line ++ wording limit placeholder value := by
  cases value with
  | none => rfl
  | some value => simp only [put, wording, clip_eq_firstCharacters]

/-- Cutting a number where it stands comes to the same as cutting it first. -/
theorem clipFrom_eq_put (line placeholder : String) (limit : Option Nat) (value : String) :
    clipFrom line.utf8ByteSize limit (line ++ value) = put line placeholder limit (some value) :=
  clipFrom_append line limit value

theorem flagText_eq_toString (on : Bool) : flagText on = toString on := by
  cases on with
  | false => rfl
  | true => rfl

variable {m : Type → Type} [Monad m] [LawfulMonad m]

/-- An instruction adds its text to the line. -/
theorem execute_eq_written (provider : Provider m) (placeholder line : String)
    (i : Instruction) :
    execute provider placeholder line i = (line ++ ·) <$> i.written provider placeholder := by
  obtain ⟨op, limit⟩ := i
  cases op with
  | text literal => simp [execute, Instruction.written]
  | field query =>
    simp only [Instruction.written, Functor.map_map]
    cases query with
    | int metric =>
      simp only [execute]
      rw [← bind_pure_comp]
      congr 1
      funext number
      cases number with
      | none => rfl
      | some n =>
        simp only
        rw [clipFrom_eq_put line placeholder, put_eq_append, Text.signedDecimal_eq_toString]
        rfl
    | flag f =>
      have hflag : flagText = toString := funext flagText_eq_toString
      simp only [execute, bind_pure_comp, put_eq_append, Query.shown, hflag]
    | startTime _ | str _ | header _ _ | trailer _ | body _ _ | uri _ | routerInfo _
    | middleware _ _ =>
      simp only [execute, bind_pure_comp, put_eq_append, Query.shown]

end Render

/-! ## A whole program -/

namespace Program

variable {m : Type → Type} [Monad m] [LawfulMonad m]

/-- **A render asks for the texts of the instructions, in order, and adds them to the line**, each
with the delimiter behind it. -/
theorem renderInto_eq_mapM (p : Program) (line : String) (provider : Provider m)
    (style : Style) :
    p.renderInto line provider style
      = (fun texts => line ++ String.join (texts.map (· ++ style.delimiter))) <$>
        p.instructions.mapM fun i => i.written provider style.placeholder := by
  obtain ⟨template, instructions⟩ := p
  unfold renderInto
  induction instructions generalizing line with
  | nil => simp
  | cons i instructions ih =>
    simp only [bind_pure_comp, Render.execute_eq_written, Functor.map_map] at ih ⊢
    rw [List.foldlM_cons, List.mapM_cons, bind_map_left, map_bind]
    congr 1
    funext text
    rw [ih, map_bind, ← bind_pure_comp]
    simp [String.append_assoc]

theorem render_eq_mapM (p : Program) (provider : Provider m) (style : Style) :
    p.render provider style
      = (fun texts => String.join (texts.map (· ++ style.delimiter))) <$>
        p.instructions.mapM fun i => i.written provider style.placeholder := by
  simp only [render, renderInto_eq_mapM, String.empty_append]

/-- At the end of a line a program writes what it writes on its own. -/
theorem renderInto_eq_map (p : Program) (line : String) (provider : Provider m) (style : Style) :
    p.renderInto line provider style = (line ++ ·) <$> p.render provider style := by
  simp only [render_eq_mapM, renderInto_eq_mapM, Functor.map_map]

/-- Programs one after the other write what they write on their own, one after the other. -/
theorem render_append {p q r : Program} (h : r.instructions = p.instructions ++ q.instructions)
    (provider : Provider m) (style : Style) :
    r.render provider style = do
      let first ← p.render provider style
      let second ← q.render provider style
      return first ++ second := by
  simp only [render_eq_mapM, h, List.mapM_append, map_bind, bind_map_left, map_pure,
    List.map_append, String.join_append]

/-- Texts are written without a question being asked, each with the delimiter behind it. -/
theorem render_literals {p : Program} {parts : List String}
    (h : p.instructions = parts.map .literal) (provider : Provider m) (style : Style) :
    p.render provider style = pure (String.join (parts.map (· ++ style.delimiter))) := by
  have hwritten : (fun i : Instruction => i.written provider style.placeholder)
      ∘ Instruction.literal = pure := rfl
  rw [render_eq_mapM, h, List.mapM_map, hwritten, List.mapM_pure, map_pure, List.map_id']

theorem render_literal {p : Program} {s : String} (h : p.instructions = [.literal s])
    (provider : Provider m) (style : Style) :
    p.render provider style = pure (s ++ style.delimiter) := by
  have hmap : p.instructions = [s].map .literal := h
  simpa using render_literals hmap provider style

/-- A sign counts, and a line that ends in a wide character is left alone. -/
example : (renderInto ⟨"", [⟨.field (.int .duration), some 3⟩]⟩ "é"
    (.minimal "" (some (-1234)) none) {}).run = "é-12" := by
  decide +kernel

end Program

/-! ## A record -/

namespace Record

theorem pushAll_eq (r : Record) (lines : List String) :
    r.pushAll lines = ⟨r.program, r.lines ++ lines⟩ := by
  induction lines generalizing r with
  | nil => rw [List.append_nil]; rfl
  | cons line lines ih =>
    rw [pushAll, List.foldl_cons, ← pushAll, ih]
    simp [push]

/-- What a record adds to the text of its program: its lines as they are, each with the delimiter
behind it. -/
def tail (r : Record) (style : Style) : String :=
  String.join (r.lines.map (· ++ style.delimiter))

variable {m : Type → Type} [Monad m] [LawfulMonad m]

theorem renderInto_eq_tail (r : Record) (line : String) (provider : Provider m) (style : Style) :
    r.renderInto line provider style
      = (fun text => line ++ (text ++ r.tail style)) <$> r.program.render provider style := by
  have hlines : ∀ (lines : List String) (line : String),
      lines.foldl (fun line extra => line ++ extra ++ style.delimiter) line
        = line ++ String.join (lines.map (· ++ style.delimiter)) := by
    intro lines
    induction lines with
    | nil => simp
    | cons extra lines ih =>
      intro line
      rw [List.foldl_cons, ih]
      simp [String.append_assoc]
  rw [renderInto, Program.renderInto_eq_map, bind_pure_comp, Functor.map_map]
  congr 1
  funext text
  rw [hlines, ← tail, String.append_assoc]

theorem render_eq_map (r : Record) (provider : Provider m) (style : Style) :
    r.render provider style = (· ++ r.tail style) <$> r.program.render provider style := by
  simp only [render, renderInto_eq_tail, String.empty_append]

/-- At the end of a line a record writes what it writes on its own. -/
theorem renderInto_eq_map (r : Record) (line : String) (provider : Provider m) (style : Style) :
    r.renderInto line provider style = (line ++ ·) <$> r.render provider style := by
  simp only [renderInto_eq_tail, render_eq_map, Functor.map_map]

end Record

/-- **A render is what its instructions write, in order, at the end of the line**, and nothing of
the line is touched: neither by literal text, nor by an answer that is cut before it is written,
nor by a number, which is cut where it stands. -/
theorem renderInto_eq_append (p : Program) (line : String) (provider : Provider Id)
    (style : Style) :
    (p.renderInto line provider style).run
        = line ++ String.join (p.instructions.map fun i =>
            (i.written provider style.placeholder).run ++ style.delimiter) ∧
      (p.render provider style).run
        = String.join (p.instructions.map fun i =>
            (i.written provider style.placeholder).run ++ style.delimiter) ∧
      ∀ (limit : Option Nat) (value : String),
        Render.clipFrom line.utf8ByteSize limit (line ++ value)
          = Render.put line style.placeholder limit (some value) := by
  have hrun : ∀ line : String, (p.renderInto line provider style).run
      = line ++ String.join (p.instructions.map fun i =>
          (i.written provider style.placeholder).run ++ style.delimiter) := by
    intro line
    rw [p.renderInto_eq_mapM, Id.run_map, List.idRun_mapM, List.map_map]
    rfl
  refine ⟨hrun line, ?_, Render.clipFrom_eq_put line style.placeholder⟩
  unfold Program.render
  rw [hrun, String.empty_append]

end AccessLog
