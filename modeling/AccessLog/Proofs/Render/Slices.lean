import AccessLog.Proofs.Compile.Rounds
import AccessLog.Proofs.Render.Denotation

/-!
# Rendering by offsets

A limit counts characters, but a line is bytes. So a value is cut at the offset of the first
character that is too many, and a number, which stands at the end of the line before it is cut, at
the sum of that offset and the size that the line had. Both cuts are slices again (`sliced?`,
`slicedFrom?`).

**They are always taken, and what they leave is what `clip` and `clipFrom` say**, whatever the
characters of the value and of the line. With that, and with what is known of a compilation by
offsets, no slice is missing from the format to the line (`slices_taken`).
-/

set_option autoImplicit false

namespace AccessLog

open Text

namespace Render

variable {limit : Option Nat}

/-! ## Cuts -/

/-- The offset of the first character of a value that is too many, if there is one. -/
def cutAt? (limit : Option Nat) (value : List Char) : Option Nat :=
  limit.bind (offsetAt? · value)

/-- `clip` by a slice. -/
def sliced? (limit : Option Nat) (value : List Char) : Option (List Char) :=
  match cutAt? limit value with
  | some stop => slice? value 0 stop
  | none => some value

/-- The size of a line whose end is cut to a limit. -/
def cutFrom? (start : Nat) (limit : Option Nat) (line : List Char) : Option Nat := do
  let written ← slice? line start (byteSize line)
  return start + byteSize (← sliced? limit written)

/-- `clipFrom` by slices. A line is not made longer by being cut. -/
def slicedFrom? (start : Nat) (limit : Option Nat) (line : List Char) : Option (List Char) := do
  let size ← cutFrom? start limit line
  if size ≤ byteSize line then slice? line 0 size else some line

/-- What a cut leaves is the front of the value. -/
theorem exists_clip_append (limit : Option Nat) (value : String) :
    ∃ rest, value.toList = (clip limit value).toList ++ rest := by
  cases limit with
  | none => exact ⟨[], (List.append_nil _).symm⟩
  | some n => exact ⟨value.toList.drop n, by simp [clip]⟩

theorem cutAt?_eq (n : Nat) (value : List Char) :
    cutAt? (some n) value
      = if n < value.length then some (byteSize (value.take n)) else none :=
  offsetAt?_eq n value

/-- A value is cut where its front ends. -/
theorem isBoundary_of_cutAt? {value : List Char} {stop : Nat} (h : cutAt? limit value = some stop) :
    IsBoundary value stop := by
  obtain ⟨n, rfl, -⟩ := Option.bind_eq_some_iff.mp h
  rw [cutAt?_eq] at h
  obtain ⟨-, heq⟩ := Option.ite_none_right_eq_some.mp h
  cases heq
  exact isBoundary_iff.mpr ⟨_, _, (List.take_append_drop n value).symm, rfl⟩

theorem sliced?_eq (limit : Option Nat) (value : String) :
    sliced? limit value.toList = some (clip limit value).toList := by
  cases limit with
  | none => rfl
  | some n =>
    simp only [sliced?, cutAt?_eq, clip, String.toList_ofList]
    by_cases hn : n < value.toList.length
    · have hfront := slice?_front (value.toList.take n) (value.toList.drop n)
      rw [List.take_append_drop] at hfront
      simpa only [if_pos hn] using hfront
    · simp only [if_neg hn, List.take_of_length_le (not_lt.mp hn)]

/-- The cut behind a line stands where the line and what is left of the value end. -/
theorem cutFrom?_eq (line : String) (limit : Option Nat) (value : String) :
    cutFrom? line.utf8ByteSize limit (line ++ value).toList
      = some (line ++ clip limit value).utf8ByteSize := by
  rw [← byteSize_toList, ← byteSize_toList, String.toList_append, String.toList_append, cutFrom?,
    slice?_back, Option.bind_eq_bind, Option.bind_some, sliced?_eq, Option.bind_some,
    byteSize_append line.toList]
  rfl

theorem isBoundary_of_cutFrom? {line value : String} {stop : Nat}
    (h : cutFrom? line.utf8ByteSize limit (line ++ value).toList = some stop) :
    IsBoundary (line ++ value).toList stop := by
  rw [cutFrom?_eq, ← byteSize_toList] at h
  cases h
  obtain ⟨rest, hrest⟩ := exists_clip_append limit value
  refine isBoundary_iff.mpr ⟨_, rest, ?_, rfl⟩
  rw [String.toList_append, String.toList_append, hrest, List.append_assoc]

theorem slicedFrom?_eq (line : String) (limit : Option Nat) (value : String) :
    slicedFrom? line.utf8ByteSize limit (line ++ value).toList
      = some (line ++ clip limit value).toList := by
  obtain ⟨rest, hrest⟩ := exists_clip_append limit value
  have hline : (line ++ value).toList = (line ++ clip limit value).toList ++ rest := by
    rw [String.toList_append, String.toList_append, hrest, List.append_assoc]
  rw [slicedFrom?, cutFrom?_eq, ← byteSize_toList, Option.bind_eq_bind, Option.bind_some, hline,
    slice?_front, if_pos (by simp)]

/-! ## One instruction -/

/-- `put` by a slice. -/
def put? (line placeholder : String) (limit : Option Nat) : Option String → Option String
  | some value => (line ++ String.ofList ·) <$> sliced? limit value.toList
  | none => some (line ++ placeholder)

/-- Writes a number whole and then cuts the line. -/
def putNumber? (line placeholder : String) (limit : Option Nat) : Option Int → Option String
  | some n => String.ofList <$> slicedFrom? line.utf8ByteSize limit (line ++ signedDecimal n).toList
  | none => some (line ++ placeholder)

theorem put?_eq (line placeholder : String) (limit : Option Nat) (value : Option String) :
    put? line placeholder limit value = some (line ++ wording limit placeholder value) := by
  cases value with
  | none => rfl
  | some value => simp [put?, sliced?_eq, wording, clip_eq_firstCharacters]

theorem putNumber?_eq (line placeholder : String) (limit : Option Nat) (number : Option Int) :
    putNumber? line placeholder limit number
      = some (line ++ wording limit placeholder (number.map toString)) := by
  cases number with
  | none => rfl
  | some n =>
    rw [putNumber?, slicedFrom?_eq, signedDecimal_eq_toString, clip_eq_firstCharacters]
    simp [wording]

variable {m : Type → Type} [Monad m]

/-- `execute` by slices; it gives up if one cannot be taken. -/
def execute? (provider : Provider m) (placeholder line : String) (i : Instruction) :
    OptionT m String :=
  match i.op with
  | .text literal => return line ++ literal
  | .field (.int metric) => OptionT.mk do
    return putNumber? line placeholder i.limit (← provider (.int metric))
  | .field query => OptionT.mk do
    return put? line placeholder i.limit (query.shown (← provider query))

theorem execute?_eq [LawfulMonad m] (provider : Provider m) (placeholder line : String)
    (i : Instruction) :
    (execute? provider placeholder line i).run = some <$> execute provider placeholder line i := by
  rw [execute_eq_written]
  obtain ⟨op, limit⟩ := i
  cases op with
  | text literal => simp [execute?, Instruction.written]
  | field query =>
    cases query with
    | int metric => simp [execute?, putNumber?_eq, Instruction.written, Query.shown]
    | _ => simp [execute?, put?_eq, Instruction.written]

end Render

/-! ## A whole line -/

namespace Program

variable {m : Type → Type} [Monad m]

/-- `renderInto` by slices. -/
def renderInto? (p : Program) (line : String) (provider : Provider m) (style : Style) :
    OptionT m String :=
  let step (line : String) (i : Instruction) : OptionT m String := do
    return (← Render.execute? provider style.placeholder line i) ++ style.delimiter
  p.instructions.foldlM step line

theorem renderInto?_eq [LawfulMonad m] (p : Program) (line : String) (provider : Provider m)
    (style : Style) :
    (p.renderInto? line provider style).run = some <$> p.renderInto line provider style := by
  obtain ⟨template, instructions⟩ := p
  unfold renderInto renderInto?
  induction instructions generalizing line with
  | nil => simp
  | cons i instructions ih =>
    simp only [bind_pure_comp] at ih ⊢
    simp [Render.execute?_eq, ih]

end Program

/-- **No slice is missing, from the format to the line.** One would be missing just if its ends were
not boundaries in the right order. The loop over a format only stands at boundaries, its rounds take
all their slices and each begins behind the one before; what reads a body takes all of its slices
too, whatever the body is. A value is cut inside of it and between characters, and so is a line, not
before the value in it begins, whatever stands before that. So compiling and rendering by offsets
always have an outcome, and it is that of `compile` and `renderInto`. -/
theorem slices_taken :
    (∀ (text : String) (start stop : Nat), (∃ part, slice? text.toList start stop = some part) ↔
      start ≤ stop ∧ (⟨start⟩ : String.Pos.Raw).IsValid text ∧
        (⟨stop⟩ : String.Pos.Raw).IsValid text) ∧
    (∀ format : String, Compile.compile? format = some (compile format) ∧
      ∀ p, Compile.Visits format.toList p →
        (⟨p.position⟩ : String.Pos.Raw).IsValid format ∧ p.position ≤ format.utf8ByteSize ∧
        (∃ outcome, Compile.round? format.toList p = some outcome) ∧
        ∀ q, Compile.round? format.toList p = some (.ok (.next q)) → p.position < q.position) ∧
    ((∀ body, Compile.name? body = some (Compile.nameOf body) ∧
        Compile.parts? body = some
          (Compile.partsOf (String.ofList (Compile.nameOf body)) (Compile.afterName body)) ∧
        Compile.body? body = some (Compile.bodyOf body)) ∧
      (∀ field tail, Compile.limit? field tail = some (Compile.limitOf field tail)) ∧
      ∀ (F : Type) [Namespace F] (field : String) (parameter : List Char),
        Compile.selector? (F := F) field parameter = some (Compile.selectorOf field parameter)) ∧
    (∀ (line value : String) (limit : Option Nat),
      (∀ stop ∈ Render.cutAt? limit value.toList,
        stop ≤ value.utf8ByteSize ∧ (⟨stop⟩ : String.Pos.Raw).IsValid value) ∧
      Render.sliced? limit value.toList = some (Render.clip limit value).toList ∧
      (∃ stop, Render.cutFrom? line.utf8ByteSize limit (line ++ value).toList = some stop ∧
        line.utf8ByteSize ≤ stop ∧ stop ≤ (line ++ value).utf8ByteSize ∧
        (⟨stop⟩ : String.Pos.Raw).IsValid (line ++ value)) ∧
      Render.slicedFrom? line.utf8ByteSize limit (line ++ value).toList
        = some (Render.clipFrom line.utf8ByteSize limit (line ++ value)).toList) ∧
    ∀ (m : Type → Type) [Monad m] [LawfulMonad m] (p : Program) (line : String)
      (provider : Provider m) (style : Style),
      (p.renderInto? line provider style).run = some <$> p.renderInto line provider style := by
  refine ⟨?_, ?_, ⟨?_, Compile.limit?_eq, fun F _ => Compile.selector?_eq⟩, ?_, ?_⟩
  · intro text start stop
    rw [exists_slice?_iff, isBoundary_toList, isBoundary_toList]
  · refine fun format => ⟨Compile.compile?_eq format, fun p hp => ?_⟩
    have hboundary := hp.isBoundary
    obtain ⟨outcome, hround, -⟩ := Compile.round?_of_isBoundary hboundary
    exact ⟨isBoundary_toList.mp hboundary, hboundary.le_utf8ByteSize, ⟨outcome, hround⟩,
      fun q => Compile.position_lt_of_round?⟩
  · exact fun body => ⟨Compile.name?_eq body, Compile.parts?_eq body, Compile.body?_eq body⟩
  · refine fun line value limit => ⟨fun stop hstop => ?_, Render.sliced?_eq limit value, ?_, ?_⟩
    · have hboundary := Render.isBoundary_of_cutAt? hstop
      exact ⟨hboundary.le_utf8ByteSize, isBoundary_toList.mp hboundary⟩
    · have hcut := Render.cutFrom?_eq line limit value
      have hboundary := Render.isBoundary_of_cutFrom? hcut
      refine ⟨_, hcut, ?_, hboundary.le_utf8ByteSize, isBoundary_toList.mp hboundary⟩
      rw [String.utf8ByteSize_append]
      exact Nat.le_add_right _ _
    · rw [Render.slicedFrom?_eq, Render.clipFrom_append]
  · exact fun m _ _ => Program.renderInto?_eq

/-- The loop stands at the end of `é%%` after the one percent sign that is written twice, a value of
two wide characters is cut between them, and a number behind a wide character is cut in itself. -/
theorem slices_taken_wide :
    (∃ p q, Compile.Visits "é%%".toList p ∧
      Compile.round? "é%%".toList p = some (.ok (.next q)) ∧ p.position < q.position ∧
      Compile.Visits "é%%".toList q ∧ q.position = 4 ∧ (⟨4⟩ : String.Pos.Raw).IsValid "é%%") ∧
    (2 ∈ Render.cutAt? (some 1) "é€".toList ∧ (⟨2⟩ : String.Pos.Raw).IsValid "é€") ∧
    Render.slicedFrom? 2 (some 3) ("é" ++ "-1234").toList = some "é-12".toList ∧
    (Program.renderInto? ⟨"", [⟨.field (.int .duration), some 3⟩]⟩ "é"
      (.minimal "" (some (-1234)) none) {}).run = some "é-12" := by
  obtain ⟨-, hformat, -, hcut, hrender⟩ := slices_taken
  have hround : Compile.round? "é%%".toList ⟨0, []⟩
      = some (.ok (.next ⟨4, [.literal "é", .literal "%"]⟩)) :=
    Compile.round?_field [] (show '%' ∉ ['é'] by decide) (show '%' ∉ [] by decide) []
  have hvisits : Compile.Visits "é%%".toList ⟨4, [.literal "é", .literal "%"]⟩ :=
    .next .start (by decide) hround
  refine ⟨⟨_, _, .start, hround, ?_, hvisits, rfl, ?_⟩, ⟨rfl, ?_⟩, ?_, ?_⟩
  · exact ((hformat "é%%").2 _ .start).2.2.2 _ hround
  · exact ((hformat "é%%").2 _ hvisits).1
  · exact ((hcut "" "é€" (some 1)).1 2 rfl).2
  · exact (hcut "é" "-1234" (some 3)).2.2.2.trans (by decide +kernel)
  · have hline : (Program.renderInto ⟨"", [⟨.field (.int .duration), some 3⟩]⟩ "é"
        (.minimal "" (some (-1234)) none) {}).run = "é-12" := by
      decide +kernel
    exact (hrender Id _ _ _ _).trans (congrArg some hline)

end AccessLog
