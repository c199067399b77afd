import AccessLog.Proofs.Outcome
import AccessLog.Proofs.Render.Calls
import AccessLog.Settings.Basic
import AccessLog.Snapshot.Answer
import AccessLog.Snapshot.Decode
import Mathlib.Control.Monad.Basic

/-!
# Lines that cannot be written

A value that is missing does not keep a line from being written, since the placeholder stands in
for it; nor does a layout with a mistake, since RFC 3339 does. One thing does: **a start time that
is asked for in RFC 2822 although its year has no place there** (`render_eq_none_iff`). The named
pattern is the only one without a form for every year, and nothing steps in for it.

Such start times are not out of the way. They can be read from a document, and an offset is enough
to carry the end of the year 9999 over into the next one (`render_after_year_9999`).
-/

set_option autoImplicit false

namespace AccessLog

/-! ## Start times -/

namespace Time.Instant

variable {t : Instant} {pattern : String}

theorem rfc2822?_eq_none_iff :
    t.rfc2822? = none ↔ ¬ (0 ≤ t.date.year ∧ t.date.year ≤ 9999) := by
  simp only [rfc2822?, ite_eq_right_iff, reduceCtorEq, imp_false]

/-- Every pattern but one has a text for every start time, be it a name, a layout, a layout with a
mistake or none of these. -/
theorem exists_inPattern? (h : Text.upper pattern ≠ "RFC2822") :
    ∃ text, t.inPattern? pattern = some text := by
  unfold inPattern?
  split
  · exact ⟨_, rfl⟩
  · exact ⟨_, rfl⟩
  · rename_i hname
    exact absurd hname h
  · exact ⟨_, rfl⟩
  · exact ⟨_, rfl⟩
  · exact ⟨_, rfl⟩
  · exact ⟨_, rfl⟩
  · -- no name: a layout that can be read, one that cannot, or neither
    split
    · split
      · exact ⟨_, rfl⟩
      · exact ⟨_, rfl⟩
    · exact ⟨_, rfl⟩

theorem inPattern?_eq_none_iff :
    t.inPattern? pattern = none ↔
      Text.upper pattern = "RFC2822" ∧ ¬ (0 ≤ t.date.year ∧ t.date.year ≤ 9999) := by
  by_cases hname : Text.upper pattern = "RFC2822"
  · have hrfc : t.inPattern? pattern = t.rfc2822? := by simp only [inPattern?, hname]
    rw [hrfc, rfc2822?_eq_none_iff]
    exact (and_iff_right hname).symm
  · obtain ⟨text, htext⟩ := exists_inPattern? (t := t) hname
    rw [htext]
    constructor
    · intro h
      cases h
    · rintro ⟨hrfc, -⟩
      exact absurd hrfc hname

end Time.Instant

namespace Snapshot

theorem startTimeText?_eq_none_iff {s : Snapshot} {pattern : String} :
    s.startTimeText? pattern = none ↔
      Text.upper pattern = "RFC2822" ∧
        ∃ t, s.startTime = some t ∧ ¬ (0 ≤ t.date.year ∧ t.date.year ≤ 9999) := by
  unfold startTimeText?
  cases s.startTime with
  | none => simp -- nothing is written for it, whatever the pattern
  | some t => simp [Time.Instant.inPattern?_eq_none_iff]

/-- Whether a program asks for the start time of a snapshot in RFC 2822 although its year has no
place there. -/
def Unwritable (s : Snapshot) (p : Program) : Prop :=
  ∃ pattern, .startTime pattern ∈ p.queries ∧ Text.upper pattern = "RFC2822" ∧
    ∃ t, s.startTime = some t ∧ ¬ (0 ≤ t.date.year ∧ t.date.year ≤ 9999)

/-- A snapshot has an answer to every query, if only that there is no value, but for a start time
that cannot be written. -/
theorem provider_eq_none_iff {s : Snapshot} {query : Query} :
    s.provider query = none ↔ ∃ pattern, query = .startTime pattern ∧
      s.startTimeText? pattern = none := by
  cases query with
  | startTime pattern =>
    constructor
    · intro h
      exact ⟨pattern, rfl, h⟩
    · rintro ⟨pattern', heq, h⟩
      cases heq
      exact h
  | int _ | str _ | flag _ | header _ _ | trailer _ | body _ _ | uri _ | routerInfo _
  | middleware _ _ =>
    constructor
    · intro h
      cases h
    · rintro ⟨_, heq, -⟩
      cases heq

end Snapshot

/-! ## Whole lines -/

theorem Instruction.written_eq_none_iff {i : Instruction} {provider : Provider Option}
    {placeholder : String} :
    i.written provider placeholder = none ↔ ∃ query ∈ i.query?, provider query = none := by
  obtain ⟨op, limit⟩ := i
  cases op with
  | text literal => simp [written, query?]
  | field query => simp [written, query?]

namespace Program

theorem renderInto_eq_none_iff {p : Program} {line : String} {provider : Provider Option}
    {style : Style} :
    p.renderInto line provider style = none ↔ ∃ query ∈ p.queries, provider query = none := by
  rw [renderInto_eq_mapM, Option.map_eq_map, Option.map_eq_none_iff, mapM_eq_none_iff]
  constructor
  · rintro ⟨i, hi, h⟩
    obtain ⟨query, hquery, h⟩ := Instruction.written_eq_none_iff.mp h
    exact ⟨query, List.mem_filterMap.mpr ⟨i, hi, hquery⟩, h⟩
  · rintro ⟨query, hquery, h⟩
    obtain ⟨i, hi, hquery⟩ := List.mem_filterMap.mp hquery
    exact ⟨i, hi, Instruction.written_eq_none_iff.mpr ⟨query, hquery, h⟩⟩

theorem renderInto_snapshot_eq_none_iff {p : Program} {s : Snapshot} {line : String}
    {style : Style} : p.renderInto line s.provider style = none ↔ s.Unwritable p := by
  rw [renderInto_eq_none_iff]
  constructor
  · rintro ⟨query, hquery, h⟩
    obtain ⟨pattern, rfl, h⟩ := Snapshot.provider_eq_none_iff.mp h
    exact ⟨pattern, hquery, Snapshot.startTimeText?_eq_none_iff.mp h⟩
  · rintro ⟨pattern, hquery, h⟩
    refine ⟨_, hquery, Snapshot.provider_eq_none_iff.mpr ⟨pattern, rfl, ?_⟩⟩
    exact Snapshot.startTimeText?_eq_none_iff.mpr h

end Program

/-- The lines of a record are text, so a record can be written when its program can. -/
theorem Record.renderInto_eq_none_iff {r : Record} {s : Snapshot} {line : String}
    {style : Style} : r.renderInto line s.provider style = none ↔ s.Unwritable r.program := by
  have hprogram : r.program.renderInto line s.provider style = none ↔ s.Unwritable r.program :=
    Program.renderInto_snapshot_eq_none_iff
  rw [← hprogram]
  unfold Record.renderInto
  cases r.program.renderInto line s.provider style <;> simp

/-- **A line can be written unless a start time is asked for in RFC 2822 that has no place
there**, be it the line of a program, of a record with any lines or of a log. -/
theorem render_eq_none_iff (s : Snapshot) :
    (∀ pattern, s.startTimeText? pattern = none ↔ Text.upper pattern = "RFC2822" ∧
      ∃ t, s.startTime = some t ∧ ¬ (0 ≤ t.date.year ∧ t.date.year ≤ 9999)) ∧
    (∀ p style, Program.render p s.provider style = none ↔ s.Unwritable p) ∧
    (∀ r style, Record.render r s.provider style = none ↔ s.Unwritable r.program) ∧
    (∀ log, Log.render log s.provider = none ↔ s.Unwritable log.program) ∧
    (∀ log r, Log.renderRecord log r s.provider = none ↔ s.Unwritable r.program) := by
  refine ⟨?_, ?_, ?_, ?_, ?_⟩
  · exact fun _ => Snapshot.startTimeText?_eq_none_iff
  · exact fun _ _ => Program.renderInto_snapshot_eq_none_iff
  · exact fun _ _ => Record.renderInto_eq_none_iff
  · exact fun _ => Program.renderInto_snapshot_eq_none_iff
  · exact fun _ _ => Record.renderInto_eq_none_iff

/-- The last second of the year 9999 an hour west of Greenwich is in the year 10000, and has no
line in RFC 2822. -/
theorem render_after_year_9999 : ∃ p s,
    compile "%START_TIME(RFC2822)%" = .ok p ∧
    Snapshot.readAll "\x7b\"start_time\":\"9999-12-31T23:59:59-01:00\"\x7d" = .ok [s] ∧
    s.startTimeText? "RFC2822" = none ∧
    p.render s.provider {} = none ∧
    (Record.mk p ["next"]).render s.provider {} = none ∧
    (Log.mk p {}).render s.provider = none := by
  refine ⟨⟨_, [⟨.field (.startTime "RFC2822"), none⟩]⟩, { startTime := some ⟨2932897, 3599, 0⟩ },
    rfl, ?_, ?_, ?_, ?_, ?_⟩
  · decide +kernel
  · decide +kernel
  · decide +kernel
  · decide +kernel
  · decide +kernel

end AccessLog
