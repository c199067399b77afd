import AccessLog.Proofs.Render.Denotation
import AccessLog.Proofs.Snapshot.Readers
import AccessLog.Proofs.Time.Stamp
import AccessLog.Snapshot.Answer

/-!
# Start times are shown as they were given

A snapshot keeps the start time as a point in time in UTC, and the pattern of a field says what is
shown of it. **What was written in UTC is shown again to the millisecond**, the date alone are its
first ten characters, and the counts of seconds and milliseconds are those of the calendar
(`startTime_shown`). A point in time that was written at an offset from UTC is shown like the same
one written in UTC.

Which point in time that is was settled for the text (`Stamp.read_written`). It gets into a snapshot
in one way only: whether it is read as it goes, from a value or among others in an array, a snapshot
has what its value means, and that is what the reader makes of the text given for the start time
(`startTime_of_means`).
-/

set_option autoImplicit false

namespace AccessLog

open Json Time

/-! ## What a pattern shows -/

namespace Time

/-- The names that patterns have, the empty one included. -/
def patternNames : List String := ["", "RFC3339", "RFC2822", "CLF", "DATE", "UNIX", "UNIX_MS"]

/-- Whether a pattern asks for RFC 3339: by name, or because it is neither a name nor a layout. -/
def AsksRfc3339 (pattern : String) : Prop :=
  Text.upper pattern ∈ ["", "RFC3339"] ∨
    (Text.upper pattern ∉ patternNames ∧ '$' ∉ pattern.toList)

variable {pattern : String}

theorem inPattern?_rfc3339 (h : AsksRfc3339 pattern) (t : Instant) :
    t.inPattern? pattern = some t.rfc3339Millis := by
  rcases h with h | ⟨hname, hlayout⟩
  · rcases List.mem_pair.mp h with h | h
    · simp only [Instant.inPattern?, h]
    · simp only [Instant.inPattern?, h]
  · unfold Instant.inPattern?
    split
    case h_8 => rw [if_neg (by simpa using hlayout)]
    -- in each other case the pattern has a name
    all_goals
      rename_i hnamed
      have hmem : Text.upper pattern ∈ patternNames := by
        rw [hnamed]
        decide
      exact absurd hmem hname

end Time

namespace Snapshot

/-- A snapshot shows a text for a pattern of the start time, and so does the line of a program that
asks for it. -/
structure ShowsTime (s : Snapshot) (pattern text : String) : Prop where
  answer : s.startTimeText? pattern = some text
  line : ∀ (p : Program) (style : Style), p.instructions = [⟨.field (.startTime pattern), none⟩] →
    p.render s.provider style = some (text ++ style.delimiter)

variable {s : Snapshot} {t : Instant} {pattern text : String}

theorem showsTime_of_inPattern? (hs : s.startTime = some t) (h : t.inPattern? pattern = some text) :
    s.ShowsTime pattern text := by
  have hanswer : s.startTimeText? pattern = some text := by
    simp only [startTimeText?, hs, h]
  refine ⟨hanswer, fun p style hp => ?_⟩
  rw [Program.render_eq_mapM, hp]
  simp [Instruction.written, Query.shown, Render.wording, Render.firstCharacters, provider, hanswer]

end Snapshot

/-- What a snapshot shows of its start time when it is a stamp. -/
structure Time.Stamp.ShownBy (u : Stamp) (s : Snapshot) : Prop where
  rfc3339 : ∀ pattern, AsksRfc3339 pattern → s.ShowsTime pattern (u.text "Z")
  date : ∀ pattern, Text.upper pattern = "DATE" →
    s.ShowsTime pattern (String.ofList ((u.text "Z").toList.take 10))
  unix : ∀ pattern, Text.upper pattern = "UNIX" → s.ShowsTime pattern (toString u.seconds)
  unixMs : ∀ pattern, Text.upper pattern = "UNIX_MS" → s.ShowsTime pattern (toString u.millis)

theorem Time.Stamp.shownBy_of_startTime {u : Stamp} {s : Snapshot}
    (hyear : 0 ≤ u.date.year ∧ u.date.year ≤ 9999) (h : s.startTime = some u.instant) :
    u.ShownBy s where
  rfc3339 pattern hpattern := by
    apply Snapshot.showsTime_of_inPattern? h
    rw [inPattern?_rfc3339 hpattern, rfc3339Millis_instant]
  date pattern hpattern := by
    apply Snapshot.showsTime_of_inPattern? h
    simp only [Instant.inPattern?, hpattern]
    rw [write_dateLayout u hyear, dateText_eq u hyear]
  unix pattern hpattern := by
    apply Snapshot.showsTime_of_inPattern? h
    simp only [Instant.inPattern?, hpattern]
    rw [Text.signedDecimal_eq_toString, seconds_instant]
  unixMs pattern hpattern := by
    apply Snapshot.showsTime_of_inPattern? h
    simp only [Instant.inPattern?, hpattern]
    rw [Text.signedDecimal_eq_toString, millis_instant]

namespace Snapshot

/-! ## What a snapshot is given -/

/-- A value gives a text for the start time. -/
def StartsAt (v : Value) (text : String) : Prop :=
  ∃ members, v.given? (parts.map Part.name) = some members ∧
    members.lookup "start_time" = some (.string text)

variable {s : Snapshot} {t : Instant} {text : String} {v : Value}

theorem startTime_of_means (h : spelling.Means v s) (hgiven : StartsAt v text)
    (hread : Instant.read text = .ok t) : s.startTime = some t := by
  obtain ⟨members, hmembers, -, hparts⟩ := h
  obtain ⟨members', hmembers', hlookup⟩ := hgiven
  cases hmembers.symm.trans hmembers'
  have hmeans := (Part.holds_iff_of_lookup hlookup).mp (hparts _ List.mem_cons_self)
  obtain ⟨hnull, -⟩ | ⟨-, t', hstart, text', htext, hread'⟩ := hmeans
  · cases hnull
  · cases htext
    cases hread.symm.trans hread'
    exact hstart

/-- A value gives a text for the start time, and for all else what another value gives. -/
def Redates (v v' : Value) (text : String) : Prop :=
  ∃ members members', v.given? (parts.map Part.name) = some members ∧
    v'.given? (parts.map Part.name) = some members' ∧
    members'.lookup "start_time" = some (.string text) ∧
    ∀ name ≠ "start_time", members'.lookup name = members.lookup name

theorem Redates.startsAt {v' : Value} (h : Redates v v' text) : StartsAt v' text := by
  obtain ⟨members, members', -, hmembers', hlookup, -⟩ := h
  exact ⟨members', hmembers', hlookup⟩

/-- **A start time that can be read spoils nothing**: with it a snapshot means what it meant before,
but for the start time. -/
theorem means_of_redates {v' : Value} (h : spelling.Means v s) (hredates : Redates v v' text)
    (hread : Instant.read text = .ok t) : spelling.Means v' { s with startTime := some t } := by
  obtain ⟨members, members', hmembers, hmembers', hlookup, hsame⟩ := hredates
  obtain ⟨given, hgiven, hnames, hparts⟩ := h
  obtain rfl : members = given := Option.some.inj (hmembers.symm.trans hgiven)
  have hothers : ∀ part ∈ parts.tail, part.name ≠ "start_time" ∧
      part.get { s with startTime := some t } = part.get s := by
    simp [parts]
  refine ⟨members', hmembers', ?_, List.forall_mem_cons.mpr ⟨?_, ?_⟩⟩
  · intro m hm
    by_cases hname : m.1 = "start_time"
    · rw [hname]
      exact List.mem_cons_self
    · have hkey : m.1 ∈ members.map Prod.fst := by
        by_contra hmissing
        rw [← Dict.lookup_eq_none_iff, ← hsame _ hname, Dict.lookup_eq_none_iff] at hmissing
        exact hmissing (List.mem_map_of_mem hm)
      obtain ⟨m', hm', heq⟩ := List.mem_map.mp hkey
      exact heq ▸ hnames m' hm'
  · exact (Part.holds_iff_of_lookup hlookup).mpr (.inr ⟨by simp, t, rfl, text, rfl, hread⟩)
  · intro part hpart
    obtain ⟨hname, hget⟩ := hothers part hpart
    have hholds := hparts part (List.mem_cons_of_mem _ hpart)
    rw [Part.holds_congr (hsame _ hname), Part.Holds, hget]
    exact hholds

/-- **A start time is shown as it was given.** A point in time of a year with four digits may be
written in UTC or at an offset from it. However a snapshot is read that is given it, the snapshot
shows it as it is written in UTC to the millisecond, by its date there, and by the seconds or
milliseconds since 1970. And whatever can be read as a snapshot is read with such a start time as
well, as the same but for it. -/
theorem startTime_shown {u : Stamp} {text : String}
    (hyear : 0 ≤ u.date.year ∧ u.date.year ≤ 9999) (h : u.Written text) :
    (∀ v s, v.Ordered → StartsAt v text → ofValue v = .ok s → u.ShownBy s) ∧
      (∀ source v s, Value.read? source = some v → StartsAt v text → read source = .ok s →
        u.ShownBy s) ∧
      (∀ source v ss, Value.read? source = some v → readAll source = .ok ss →
        List.Forall₂ (fun item s => StartsAt item text → u.ShownBy s) (elements v) ss) ∧
      ∀ v v' s, v.Ordered → v'.Ordered → Redates v v' text → ofValue v = .ok s →
        ∃ s', s' = { s with startTime := some u.instant } ∧ ofValue v' = .ok s' ∧
          ∀ source, Value.read? source = some v' →
            ((Document.read source).root.Distinct → read source = .ok s') ∧
              ∀ members, v' = .object members → readAll source = .ok [s'] := by
  have hread := Stamp.read_written h hyear
  have hshown : ∀ v s, spelling.Means v s → StartsAt v text → u.ShownBy s := by
    intro v s hmeans hgiven
    exact Stamp.shownBy_of_startTime hyear (startTime_of_means hmeans hgiven hread)
  refine ⟨?_, ?_, ?_, ?_⟩
  · intro v s hordered hgiven hs
    exact hshown v s ((ofValue_eq_ok_iff_means hordered).mp hs) hgiven
  · intro source v s hv hgiven hs
    obtain ⟨v', hv', hmeans⟩ := exists_means_of_read hs
    cases hv.symm.trans hv'
    exact hshown v s hmeans hgiven
  · intro source v ss hv hss
    obtain ⟨v', hv', hall⟩ := exists_means_of_readAll hss
    cases hv.symm.trans hv'
    exact hall.imp hshown
  · intro v v' s hordered hordered' hredates hs
    have hmeans := means_of_redates ((ofValue_eq_ok_iff_means hordered).mp hs) hredates hread
    have hvalue := (ofValue_eq_ok_iff_means hordered').mpr hmeans
    refine ⟨_, rfl, hvalue, fun source hsource => ⟨?_, ?_⟩⟩
    · exact fun hdistinct => read_of_means hsource hdistinct hmeans
    · rintro members rfl
      exact readAll_eq_ok_iff.mpr ⟨_, hsource, .cons hvalue .nil⟩

/-- Half an hour before 1970, in a leap second, on clocks for which the year is over. -/
theorem startTime_shown_leap_second : ∃ u : Stamp,
    (0 ≤ u.date.year ∧ u.date.year ≤ 9999) ∧ u.Written "1970-01-01T05:29:60.250+06:00" ∧
      ∃ s : Snapshot, s.request.method = some "GET" ∧
        read ("\x7b\"start_time\":\"1970-01-01T05:29:60.250+06:00\","
          ++ "\"request\":[\"GET\"]\x7d") = .ok s ∧
        s.ShowsTime "" "1969-12-31T23:29:60.250Z" ∧ s.ShowsTime "date" "1969-12-31" ∧
        s.ShowsTime "Unix" "-1801" ∧ s.ShowsTime "UNIX_MS" "-1799750" := by
  let u : Stamp := ⟨⟨1969, 12, 31⟩, 23, 29, 60, 250, by constructor <;> decide, by decide,
    by decide, by decide, by decide⟩
  let v : Stamp := ⟨⟨1970, 1, 1⟩, 5, 29, 60, 250, by constructor <;> decide, by decide, by decide,
    by decide, by decide⟩
  let o : Offset := ⟨true, 6, 0, true, by decide, by decide⟩
  have hyear : 0 ≤ u.date.year ∧ u.date.year ≤ 9999 := by decide
  have hdays : u.date.days = -1 := by
    rw [← Date.number_eq_days u.calendar]
    decide
  have hdays' : v.date.days = 0 := by
    rw [← Date.number_eq_days v.calendar]
    decide
  have hminutes : v.minutes = u.minutes + o.size := by
    rw [Stamp.minutes, Stamp.minutes, hdays, hdays']
    decide
  have htext : v.text o.text = "1970-01-01T05:29:60.250+06:00" := by decide +kernel
  have hwritten : u.Written "1970-01-01T05:29:60.250+06:00" := htext ▸ .offset v o hminutes rfl rfl
  obtain ⟨-, hshown, -, hreads⟩ := startTime_shown hyear hwritten
  -- the same request without a start time
  have hredates : Redates (.object [("request", .array [.string "GET"])])
      (.object [("request", .array [.string "GET"]),
        ("start_time", .string "1970-01-01T05:29:60.250+06:00")])
      "1970-01-01T05:29:60.250+06:00" := by
    refine ⟨_, _, rfl, rfl, by simp [Dict.lookup_cons_eq_ite], ?_⟩
    intro name hname
    simp [Dict.lookup_cons_eq_ite, hname]
  obtain ⟨s, hs, -, hsource⟩ := hreads _ _ { request := { method := some "GET" } } (by decide)
    (by decide) hredates rfl
  have hvalue : Value.read? ("\x7b\"start_time\":\"1970-01-01T05:29:60.250+06:00\","
      ++ "\"request\":[\"GET\"]\x7d") = some (.object [("request", .array [.string "GET"]),
        ("start_time", .string "1970-01-01T05:29:60.250+06:00")]) := by decide +kernel
  have hread := (hsource _ hvalue).1 (by decide +kernel)
  have hshown := hshown _ _ s hvalue hredates.startsAt hread
  have hutc : u.text "Z" = "1969-12-31T23:29:60.250Z" := by decide +kernel
  have hdate : String.ofList ((u.text "Z").toList.take 10) = "1969-12-31" := by
    rw [hutc]
    decide
  have hseconds : u.seconds = -1801 := by
    rw [Stamp.seconds, hdays]
    decide
  have hunix : toString u.seconds = "-1801" := by
    rw [hseconds]
    decide
  have hmillis : toString u.millis = "-1799750" := by
    rw [Stamp.millis, hseconds]
    decide
  exact ⟨u, hyear, hwritten, s, hs ▸ rfl, hread, hutc ▸ hshown.rfc3339 "" (.inl (by decide)),
    hdate ▸ hshown.date "date" (by decide), hunix ▸ hshown.unix "Unix" (by decide),
    hmillis ▸ hshown.unixMs "UNIX_MS" (by decide)⟩

end Snapshot

end AccessLog
