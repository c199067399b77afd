import AccessLog.Proofs.Dictionary
import AccessLog.Proofs.Outcome
import AccessLog.Proofs.Render.Denotation
import AccessLog.Session

/-!
# Sessions keep things apart

Whatever a session works through, what it has under a name stays what it is until a step replaces
it. A step writes to one place at most, and only if it succeeds (`step_same`); so a place that no
successful step writes to has the same in it after any run (`run_same`).

A record is written to by two sorts of steps. One makes a record anew. The other adds lines and
leaves the program alone, and it cannot fail, as there is a record. So **from the step that makes a
record to the next one that does, the record has the program that it was made from**, and its lines
are those it had at first and then all that were pushed to it (`records_after`), whatever happens to
the place that the program came from. What a record is made from is looked up once, when it is made,
and never again.
-/

set_option autoImplicit false

namespace AccessLog

/-- What a record writes of a snapshot: the text of its program and then its lines, with the
delimiter behind each. -/
def Record.text? (record : Record) (snapshot : Snapshot) (style : Style) : Option String :=
  (record.program.render snapshot.provider style).map
    (· ++ String.join (record.lines.map (· ++ style.delimiter)))

namespace Session

variable {s t : Session} {what : Step} {reply : Reply} {e : Failure} {name : String}

/-! ## Runs -/

/-- The session after some steps. -/
def after (s : Session) (steps : List Step) : Session := (s.run steps).1

/-- The steps of a run that do not fail. -/
def done (s : Session) (steps : List Step) : List Step :=
  ((steps.zip (s.run steps).2).filter (·.2.isOk)).map Prod.fst

theorem run_cons_ok (h : s.step what = .ok (t, reply)) (steps : List Step) :
    s.run (what :: steps) = (t.after steps, .ok reply :: (t.run steps).2) := by
  simp [run, advance, h, after]

theorem run_cons_error (h : s.step what = .error e) (steps : List Step) :
    s.run (what :: steps) = (s.after steps, .error e :: (s.run steps).2) := by
  simp [run, advance, h, after]

theorem after_cons_ok (h : s.step what = .ok (t, reply)) (steps : List Step) :
    s.after (what :: steps) = t.after steps := by
  rw [after, run_cons_ok h]

theorem after_cons_error (h : s.step what = .error e) (steps : List Step) :
    s.after (what :: steps) = s.after steps := by
  rw [after, run_cons_error h]

theorem done_cons_ok (h : s.step what = .ok (t, reply)) (steps : List Step) :
    s.done (what :: steps) = what :: t.done steps := by
  simp [done, run_cons_ok h, Except.isOk, Except.toBool]

theorem done_cons_error (h : s.step what = .error e) (steps : List Step) :
    s.done (what :: steps) = s.done steps := by
  simp [done, run_cons_error h, Except.isOk, Except.toBool]

/-- Induction over a run, step by step, each of which succeeds or fails. -/
theorem run_induct {motive : Session → List Step → Prop} (nil : ∀ s, motive s [])
    (ok : ∀ s t what reply steps, s.step what = .ok (t, reply) → motive t steps →
      motive s (what :: steps))
    (error : ∀ s what e steps, s.step what = .error e → motive s steps → motive s (what :: steps))
    (s : Session) (steps : List Step) : motive s steps := by
  induction steps generalizing s with
  | nil => exact nil s
  | cons what steps ih =>
    cases h : s.step what with
    | ok result => exact ok s result.1 what result.2 steps h (ih result.1)
    | error e => exact error s what e steps h (ih s)

/-- **Steps that fail might as well be left out.** -/
theorem run_done (s : Session) (steps : List Step) :
    s.run (s.done steps) = (s.after steps, (s.run steps).2.filter Except.isOk) := by
  induction s, steps using run_induct with
  | nil s => rfl
  | ok s t what reply steps h ih =>
    rw [done_cons_ok h, run_cons_ok h, after, ih, after_cons_ok h, run_cons_ok h]
    rfl
  | error s what e steps h ih =>
    rw [done_cons_error h, ih, after_cons_error h, run_cons_error h]
    rfl

/-! ## Places -/

/-- Where a session keeps something. -/
inductive Place where
  | program (name : String)
  | log (name : String)
  | record (name : String)
  | snapshot (name : String)
  | buffer
  deriving DecidableEq

/-- Two sessions have the same in a place. -/
def Place.Same (s t : Session) : Place → Prop
  | .program name => t.programs.get? name = s.programs.get? name
  | .log name => t.logs.get? name = s.logs.get? name
  | .record name => t.records.get? name = s.records.get? name
  | .snapshot name => t.snapshots.get? name = s.snapshots.get? name
  | .buffer => t.buffer = s.buffer

theorem Place.Same.refl (place : Place) (s : Session) : place.Same s s := by
  cases place <;> rfl

theorem Place.Same.trans {place : Place} {r s t : Session} (h : place.Same r s)
    (h' : place.Same s t) : place.Same r t := by
  cases place <;> exact Eq.trans h' h

/-- The place that a step writes to. What is rendered on its own is written nowhere. -/
def Step.place? : Step → Option Place
  | .compile name _ => some (.program name)
  | .configure name _ => some (.log name)
  | .readSnapshot name _ => some (.snapshot name)
  | .makeRecord name _ => some (.record name)
  | .push record _ => some (.record record)
  | .render _ _ => none
  | .renderInto _ _ _ | .setBuffer _ => some .buffer

/-- **A step leaves every place but one alone.** -/
theorem step_same (h : s.step what = .ok (t, reply)) {place : Place}
    (hne : what.place? ≠ some place) : place.Same s t := by
  cases what with
  | compile name _ | configure name _ | readSnapshot name _ | makeRecord name _ | push name _ =>
    -- a dictionary gets a new entry, and the places are those of the others and the other names
    obtain ⟨stored, -, heq⟩ := bind_eq_ok_iff.mp h
    cases heq
    cases place <;> simp_all [Place.Same, Step.place?, Dict.get?_insert, eq_comm]
  | render key what =>
    obtain ⟨snapshot, -, h⟩ := bind_eq_ok_iff.mp h
    obtain ⟨text, -, heq⟩ := bind_eq_ok_iff.mp h
    cases heq
    exact .refl place s
  | renderInto key what style =>
    obtain ⟨snapshot, -, h⟩ := bind_eq_ok_iff.mp h
    obtain ⟨text, -, heq⟩ := bind_eq_ok_iff.mp h
    cases heq
    cases place <;> simp_all [Place.Same, Step.place?]
  | setBuffer text =>
    cases h
    cases place <;> simp_all [Place.Same, Step.place?]

/-- **What no successful step writes to stays as it is.** -/
theorem run_same {place : Place} (s : Session) (steps : List Step)
    (hne : ∀ what ∈ s.done steps, what.place? ≠ some place) : place.Same s (s.after steps) := by
  induction s, steps using run_induct with
  | nil s => exact .refl place s
  | ok s t what reply steps h ih =>
    rw [done_cons_ok h, List.forall_mem_cons] at hne
    rw [after_cons_ok h]
    exact (step_same h hne.1).trans (ih hne.2)
  | error s what e steps h ih =>
    rw [done_cons_error h] at hne
    rw [after_cons_error h]
    exact ih hne

/-! ## What is stored -/

theorem step_compile {template : String} {program : Program}
    (h : AccessLog.compile template = .ok program) (s : Session) (name : String) :
    ∃ t, s.step (.compile name template) = .ok (t, .size program.size) ∧
      t.programs.get? name = some program := by
  have hstep : s.step (.compile name template)
      = .ok ({ s with programs := s.programs.insert name program }, .size program.size) :=
    bind_eq_ok_iff.mpr ⟨program, mapError_eq_ok_iff.mpr h, rfl⟩
  refine ⟨_, hstep, ?_⟩
  rw [Dict.get?_insert, if_pos rfl]

theorem step_configure {source : SettingsSource} {settings : Settings} {program : Program}
    (hsettings : source.read = .ok settings) (h : AccessLog.compile settings.format = .ok program)
    (s : Session) (name : String) :
    ∃ t, s.step (.configure name source) = .ok (t, .size program.size) ∧
      t.logs.get? name = some ⟨program, settings.style⟩ := by
  have hbuild : settings.buildOrExplain = .ok ⟨program, settings.style⟩ :=
    mapError_eq_ok_iff.mpr (bind_eq_ok_iff.mpr ⟨program, h, rfl⟩)
  have hstep : s.step (.configure name source) = .ok
      ({ s with logs := s.logs.insert name ⟨program, settings.style⟩ }, .size program.size) :=
    bind_eq_ok_iff.mpr ⟨_, mapError_eq_ok_iff.mpr (bind_eq_ok_iff.mpr ⟨settings, hsettings, hbuild⟩),
      rfl⟩
  refine ⟨_, hstep, ?_⟩
  rw [Dict.get?_insert, if_pos rfl]

/-! ## Records -/

/-- What a record is made from as things stand: its program and the lines that it has at first. -/
inductive Makes (s : Session) : RecordSource → Record → Prop where
  | log {name : String} {log : Log} (h : s.logs.get? name = some log) :
    Makes s (.log name) ⟨log.program, []⟩
  | copy {name : String} {record : Record} (h : s.records.get? name = some record) :
    Makes s (.copy name) record
  | program {name : String} {program : Program} (h : s.programs.get? name = some program)
    (lines : List String) : Makes s (.program name lines) ⟨program, lines⟩

/-- Whether a step makes a record anew. -/
def Step.makes (name : String) : Step → Bool
  | .makeRecord made _ => made == name
  | _ => false

/-- The lines that a step pushes to a record. -/
def Step.pushes (name : String) : Step → List String
  | .push record lines => if record = name then lines else []
  | _ => []

section

variable {α β : Type} {names : Dict String α}

theorem find_eq_ok_iff {a : α} : find names name = .ok a ↔ names.get? name = some a := by
  unfold find
  cases names.get? name <;> simp

theorem find_bind_of_some {a : α} (h : names.get? name = some a) (f : α → Except Failure β) :
    (find names name >>= f) = f a := by
  rw [find_eq_ok_iff.mpr h]
  rfl

theorem find_bind_of_none (h : names.get? name = none) (f : α → Except Failure β) :
    (find names name >>= f) = .error .noSuchName := by
  rw [find, h]
  rfl

end

/-- What a record is made from is what is found under the names there are now. -/
theorem makeRecord_eq_ok_iff {source : RecordSource} {made : Record} :
    s.makeRecord source = .ok made ↔ s.Makes source made := by
  cases source with
  | log name =>
    simp only [makeRecord, bind_eq_ok_iff, pure_eq_ok_iff, find_eq_ok_iff]
    constructor
    · rintro ⟨log, h, rfl⟩
      exact .log h
    · intro h
      cases h with
      | log h => exact ⟨_, h, rfl⟩
  | copy name =>
    simp only [makeRecord, find_eq_ok_iff]
    constructor
    · intro h
      exact .copy h
    · intro h
      cases h with
      | copy h => exact h
  | program name lines =>
    simp only [makeRecord, bind_eq_ok_iff, pure_eq_ok_iff, find_eq_ok_iff]
    constructor
    · rintro ⟨program, h, rfl⟩
      exact .program h lines
    · intro h
      cases h with
      | program h => exact ⟨_, h, rfl⟩

theorem step_makeRecord {source : RecordSource} {made : Record} (h : s.Makes source made)
    (name : String) :
    ∃ t, s.step (.makeRecord name source) = .ok (t, .record made.program.template made.lines) ∧
      t.records.get? name = some made := by
  have hstep : s.step (.makeRecord name source) = .ok
      ({ s with records := s.records.insert name made }, .record made.program.template made.lines) :=
    bind_eq_ok_iff.mpr ⟨made, makeRecord_eq_ok_iff.mpr h, rfl⟩
  refine ⟨_, hstep, ?_⟩
  rw [Dict.get?_insert, if_pos rfl]

/-- **Unless it makes the record anew, a step can only add lines to it**, and those are the lines
it pushes. -/
theorem step_record {record : Record} (h : s.step what = .ok (t, reply))
    (hrecord : s.records.get? name = some record) (hmakes : what.makes name = false) :
    t.records.get? name = some ⟨record.program, record.lines ++ what.pushes name⟩ := by
  by_cases hplace : what.place? = some (.record name)
  · -- only two kinds of steps write to a record, and one of them makes it anew
    cases what with
    | makeRecord made source =>
      cases hplace
      simp [Step.makes] at hmakes
    | push pushed lines =>
      cases hplace
      obtain ⟨found, hfound, heq⟩ := bind_eq_ok_iff.mp h
      cases heq
      rw [find_eq_ok_iff, hrecord] at hfound
      cases hfound
      simp [Dict.get?_insert, Record.pushAll_eq, Step.pushes]
    | _ => cases hplace
  · have hsame : Place.Same s t (.record name) := step_same h hplace
    have hpushes : what.pushes name = [] := by
      cases what <;> simp_all [Step.pushes, Step.place?]
    rw [hpushes, List.append_nil]
    exact Eq.trans hsame hrecord

/-- Nothing goes wrong when lines are pushed to a record that is there. -/
theorem pushes_of_step_error {record : Record} (h : s.step what = .error e)
    (hrecord : s.records.get? name = some record) : what.pushes name = [] := by
  cases what with
  | push pushed lines =>
    by_cases hname : pushed = name
    · subst hname
      simp only [step, find, hrecord] at h
      cases h
    · exact if_neg hname
  | _ => rfl

/-- **A record keeps its program and its lines until it is made anew**, and behind the lines there
are those that were pushed to it since, in order. -/
theorem records_after {record : Record} (s : Session) (steps : List Step)
    (hrecord : s.records.get? name = some record)
    (hmakes : ∀ what ∈ s.done steps, what.makes name = false) :
    (s.after steps).records.get? name
      = some ⟨record.program, record.lines ++ steps.flatMap (·.pushes name)⟩ := by
  induction s, steps using run_induct generalizing record with
  | nil s => simpa [after, run] using hrecord
  | ok s t what reply steps h ih =>
    rw [done_cons_ok h, List.forall_mem_cons] at hmakes
    rw [after_cons_ok h, ih (step_record h hrecord hmakes.1) hmakes.2, List.flatMap_cons,
      List.append_assoc]
  | error s what e steps h ih =>
    rw [done_cons_error h] at hmakes
    rw [after_cons_error h, ih hrecord hmakes, List.flatMap_cons, pushes_of_step_error h hrecord,
      List.nil_append]

/-! ## Rendering -/

variable {key : String} {snapshot : Snapshot}

/-- The text that is rendered of a snapshot by name. -/
def rendered (s : Session) (key : String) (printed : Printable) : Except Failure String := do
  s.render (← find s.snapshots key) printed

/-- What a step shows that renders a text, if there is one. -/
def shows (s : Session) (text : Option String) : Except Failure (Session × Reply) :=
  match text with
  | some text => .ok (s, .output text)
  | none => .error .unwritable

theorem step_render_eq (s : Session) (key : String) (printed : Printable) :
    s.step (.render key printed) = (fun text => (s, .output text)) <$> s.rendered key printed := by
  simp only [step, rendered, map_bind, bind_pure_comp]

theorem step_render {printed : Printable} {text : Option String}
    (hsnapshot : s.snapshots.get? key = some snapshot)
    (h : s.render snapshot printed = written text) : s.step (.render key printed) = s.shows text := by
  have hrendered : s.rendered key printed = written text :=
    (find_bind_of_some hsnapshot _).trans h
  rw [step_render_eq, hrendered]
  cases text <;> rfl

/-- A record is rendered in the style that is asked for. -/
theorem render_record {record : Record} (h : s.records.get? name = some record) (style : Style) :
    s.render snapshot (.record name style) = written (record.text? snapshot style) := by
  have htext : record.render snapshot.provider style = record.text? snapshot style :=
    record.render_eq_map _ _
  exact (find_bind_of_some h _).trans (congrArg written htext)

/-- In the style of a log it is still the record's own program that is rendered. -/
theorem render_logRecord {record : Record} (h : s.records.get? name = some record)
    {other : String} {log : Log} (hlog : s.logs.get? other = some log) :
    s.render snapshot (.logRecord other name) = written (record.text? snapshot log.style) := by
  have htext : log.renderRecord record snapshot.provider = record.text? snapshot log.style :=
    record.render_eq_map _ _
  refine (find_bind_of_some hlog _).trans ?_
  exact (find_bind_of_some h _).trans (congrArg written htext)

/-- What a step renders at the end of the buffer, rendered on its own. -/
def Appendable.alone (style : Style) : Appendable → Printable
  | .record name => .record name style
  | .program name => .program name style

/-- The session with a text at the end of its buffer. -/
def grow (s : Session) (text : String) : Session := { s with buffer := s.buffer ++ text }

theorem written_map (f : String → String) (text : Option String) :
    written (f <$> text) = f <$> written text := by
  cases text <;> rfl

theorem renderInto_eq_map (s : Session) (snapshot : Snapshot) (appended : Appendable)
    (style : Style) : s.renderInto snapshot appended style
      = (s.buffer ++ ·) <$> s.render snapshot (appended.alone style) := by
  cases appended with
  | record name =>
    simp only [renderInto, render, Appendable.alone, map_bind, Record.renderInto_eq_map, written_map]
  | program name =>
    simp only [renderInto, render, Appendable.alone, map_bind, Program.renderInto_eq_map, written_map]

/-- **Rendering at the end of the buffer adds the text that is rendered otherwise**, and fails
where that fails. -/
theorem step_renderInto_eq (s : Session) (key : String) (appended : Appendable) (style : Style) :
    s.step (.renderInto key appended style)
      = (fun text => (s.grow text, .buffer (s.grow text).buffer)) <$>
        s.rendered key (appended.alone style) := by
  simp only [step, rendered, renderInto_eq_map, map_bind, bind_pure_comp, Functor.map_map]
  rfl

/-! ## Failure -/

/-- The places that a step looks into. -/
def Step.reads : Step → List Place
  | .compile _ _ | .configure _ _ | .readSnapshot _ _ | .setBuffer _ => []
  | .makeRecord _ (.log name) => [.log name]
  | .makeRecord _ (.copy name) => [.record name]
  | .makeRecord _ (.program name _) => [.program name]
  | .push name _ => [.record name]
  | .render key (.log name) => [.snapshot key, .log name]
  | .render key (.logRecord log record) => [.snapshot key, .log log, .record record]
  | .render key (.record name _) | .renderInto key (.record name) _ => [.snapshot key, .record name]
  | .render key (.program name _) | .renderInto key (.program name) _ =>
    [.snapshot key, .program name]

/-- There is nothing in a place. -/
def Place.Empty (s : Session) : Place → Prop
  | .program name => s.programs.get? name = none
  | .log name => s.logs.get? name = none
  | .record name => s.records.get? name = none
  | .snapshot name => s.snapshots.get? name = none
  | .buffer => False

/-- Reasons for a step to fail. -/
inductive Fails (s : Session) : Step → Failure → Prop where
  | unknown {what : Step} {place : Place} (hreads : place ∈ what.reads) (h : place.Empty s) :
    Fails s what .noSuchName
  | compile {name template : String} {e : CompileError} (h : AccessLog.compile template = .error e) :
    Fails s (.compile name template) (.compile e)
  | settings {name : String} {source : SettingsSource} {e : SettingsError}
    (h : source.read = .error e) : Fails s (.configure name source) (.settings e)
  | format {name : String} {source : SettingsSource} {settings : Settings} {e : CompileError}
    (h : source.read = .ok settings) (he : AccessLog.compile settings.format = .error e) :
    Fails s (.configure name source) (.settings (.compile e))
  | snapshot {name source : String} {fault : Json.Fault} (h : Snapshot.read source = .error fault) :
    Fails s (.readSnapshot name source) (.snapshot fault)

/-- What is rendered cannot be found if one of its places is empty. -/
theorem rendered_of_empty {printed : Printable} {place : Place}
    (hreads : place ∈ (Step.render key printed).reads) (h : place.Empty s) :
    s.rendered key printed = .error .noSuchName := by
  cases hsnapshot : s.snapshots.get? key with
  | none => exact find_bind_of_none hsnapshot _
  | some snapshot =>
    refine (find_bind_of_some hsnapshot _).trans ?_
    cases printed with
    | logRecord log record =>
      simp only [Step.reads, List.mem_cons, List.not_mem_nil, or_false] at hreads
      rcases hreads with rfl | rfl | rfl
      · cases hsnapshot.symm.trans h
      · exact find_bind_of_none h _
      · cases hlog : s.logs.get? log with
        | none => exact find_bind_of_none hlog _
        | some found => exact (find_bind_of_some hlog _).trans (find_bind_of_none h _)
    | log name | record name _ | program name _ =>
      simp only [Step.reads, List.mem_cons, List.not_mem_nil, or_false] at hreads
      rcases hreads with rfl | rfl
      · cases hsnapshot.symm.trans h
      · exact find_bind_of_none h _

/-- **A step that looks into an empty place fails.** -/
theorem step_of_empty {place : Place} (hreads : place ∈ what.reads) (h : place.Empty s) :
    s.step what = .error .noSuchName := by
  cases what with
  | compile _ _ | configure _ _ | readSnapshot _ _ | setBuffer _ => cases hreads
  | push name lines =>
    obtain rfl := List.mem_singleton.mp hreads
    exact find_bind_of_none h _
  | makeRecord name source =>
    have hmake : s.makeRecord source = .error .noSuchName := by
      cases source with
      | copy other =>
        obtain rfl := List.mem_singleton.mp hreads
        simp only [makeRecord, find, show s.records.get? other = none from h]
      | log _ | program _ _ =>
        obtain rfl := List.mem_singleton.mp hreads
        exact find_bind_of_none h _
    rw [step, hmake]
    rfl
  | render key printed =>
    rw [step_render_eq, rendered_of_empty hreads h]
    rfl
  | renderInto key appended style =>
    have hreads' : place ∈ (Step.render key (appended.alone style)).reads := by
      cases appended <;> exact hreads
    rw [step_renderInto_eq, rendered_of_empty hreads' h]
    rfl

theorem Fails.step_eq (h : s.Fails what e) : s.step what = .error e := by
  cases h with
  | unknown hreads h => exact step_of_empty hreads h
  | compile h => simp [step, h, Except.mapError]
  | settings h => simp [step, h, Except.mapError, Except.bind]
  | format h he =>
    simp [step, h, he, Except.mapError, Except.bind, Settings.buildOrExplain, Settings.build]
  | snapshot h => simp [step, h, Except.mapError]

/-! ## Sessions -/

/-- **Programs, logs, records and the buffer do not interfere**, whatever a session works through.

What is stored under a name is what was compiled, in the style of the settings, and stays there until
a successful step writes to the place. A record that was made is rendered as its own program, with its
own lines behind it: the program and the lines that it was made from, and then whatever was pushed to
it since. The style is that of the rendering, or that of the log that it is rendered with. A rendering
at the end of the buffer adds just the text that would be rendered on its own.

A step fails if a name is unknown or if a format, settings or a snapshot are wrong, and a step that
fails changes nothing: without it the run goes on as it does with it. -/
theorem run_isolated (s : Session) :
    (∀ name template program, AccessLog.compile template = .ok program →
      (s.after [.compile name template]).programs.get? name = some program) ∧
    (∀ name source settings program, source.read = .ok settings →
      AccessLog.compile settings.format = .ok program →
      (s.after [.configure name source]).logs.get? name = some ⟨program, settings.style⟩) ∧
    (∀ steps place, (∀ what ∈ s.done steps, what.place? ≠ some place) →
      place.Same s (s.after steps)) ∧
    (∀ name source made, s.Makes source made → ∀ later,
      (∀ what ∈ (s.after [.makeRecord name source]).done later, what.makes name = false) →
      ∀ t record, t = s.after (.makeRecord name source :: later) →
        record = ⟨made.program, made.lines ++ later.flatMap (·.pushes name)⟩ →
        t.records.get? name = some record ∧
        ∀ key snapshot, t.snapshots.get? key = some snapshot →
          (∀ style, t.step (.render key (.record name style))
            = t.shows (record.text? snapshot style)) ∧
          ∀ other log, t.logs.get? other = some log →
            t.step (.render key (.logRecord other name))
              = t.shows (record.text? snapshot log.style)) ∧
    (∀ key snapshot, s.snapshots.get? key = some snapshot →
      (∀ name program style, s.programs.get? name = some program →
        s.step (.render key (.program name style))
          = s.shows (program.render snapshot.provider style)) ∧
      ∀ name log, s.logs.get? name = some log →
        s.step (.render key (.log name))
          = s.shows (log.program.render snapshot.provider log.style)) ∧
    (∀ key appended style,
      (∀ text, s.step (.render key (appended.alone style)) = .ok (s, .output text) ↔
        s.step (.renderInto key appended style) = .ok (s.grow text, .buffer (s.buffer ++ text))) ∧
      ∀ e, s.step (.render key (appended.alone style)) = .error e ↔
        s.step (.renderInto key appended style) = .error e) ∧
    (∀ what e, s.Fails what e → s.step what = .error e) ∧
    (∀ what e, s.step what = .error e → ∀ later, s.after (what :: later) = s.after later) ∧
    ∀ steps, s.run (s.done steps) = (s.after steps, (s.run steps).2.filter Except.isOk) := by
  refine ⟨?_, ?_, fun steps _ h => run_same s steps h, ?_, ?_, ?_, fun _ _ h => h.step_eq,
    fun _ _ h later => after_cons_error h later, run_done s⟩
  · intro name template program h
    obtain ⟨t, hstep, hstored⟩ := step_compile h s name
    rw [after_cons_ok hstep]
    exact hstored
  · intro name source settings program hsettings h
    obtain ⟨t, hstep, hstored⟩ := step_configure hsettings h s name
    rw [after_cons_ok hstep]
    exact hstored
  · rintro name source made hmakes later hlater t record rfl rfl
    obtain ⟨t, hstep, hmade⟩ := step_makeRecord hmakes name
    rw [after_cons_ok hstep] at hlater
    have hrecord := records_after t later hmade hlater
    rw [after_cons_ok hstep]
    refine ⟨hrecord, fun key snapshot hsnapshot => ⟨fun style => ?_, fun other log hlog => ?_⟩⟩
    · exact step_render hsnapshot (render_record hrecord style)
    · exact step_render hsnapshot (render_logRecord hrecord hlog)
  · intro key snapshot hsnapshot
    constructor
    · intro name program style h
      exact step_render hsnapshot (find_bind_of_some h _)
    · intro name log h
      exact step_render hsnapshot (find_bind_of_some h _)
  · intro key appended style
    rw [step_render_eq, step_renderInto_eq]
    constructor
    · intro text
      rw [map_eq_ok_iff, map_eq_ok_iff]
      refine exists_congr fun found => and_congr_right fun _ => ?_
      constructor
      · intro heq
        cases heq
        rfl
      · intro heq
        have hbuffer : s.buffer ++ found = s.buffer ++ text :=
          congrArg (·.1.buffer) heq
        rw [String.append_right_inj] at hbuffer
        rw [hbuffer]
    · intro e
      rw [map_eq_error_iff, map_eq_error_iff]

/-- A record is made, its program's name is given to another program, a copy of it goes its own way,
two steps fail, and a log is made. The record is rendered in the style that is asked for and in that
of the log. -/
theorem run_isolated_restored : ∃ s t : Session,
    s = after {} [.compile "p" "%RESPONSE_CODE%",
      .readSnapshot "a" "\x7b\"response\":\x7b\"status\":200\x7d\x7d"] ∧
    t = s.after [.makeRecord "r" (.program "p" ["100%"]), .compile "p" "x",
      .makeRecord "c" (.copy "r"), .push "c" ["d"], .push "r" ["b"], .push "q" ["e"],
      .configure "l" (.given ⟨"%", {}⟩), .configure "l" (.given ⟨"y", ⟨"-", "|"⟩⟩)] ∧
    t.step (.render "a" (.record "r" ⟨"-", ";"⟩)) = .ok (t, .output "200;100%;b;") ∧
    t.step (.render "a" (.logRecord "l" "r")) = .ok (t, .output "200|100%|b|") := by
  let s : Session := after {} [.compile "p" "%RESPONSE_CODE%",
    .readSnapshot "a" "\x7b\"response\":\x7b\"status\":200\x7d\x7d"]
  have hmakes : s.Makes (.program "p" ["100%"])
      ⟨⟨"%RESPONSE_CODE%", [⟨.field (.int .responseCode), none⟩]⟩, ["100%"]⟩ :=
    .program (by decide +kernel) _
  obtain ⟨-, hshows⟩ := (run_isolated s).2.2.2.1 "r" _ _ hmakes [.compile "p" "x",
    .makeRecord "c" (.copy "r"), .push "c" ["d"], .push "r" ["b"], .push "q" ["e"],
    .configure "l" (.given ⟨"%", {}⟩), .configure "l" (.given ⟨"y", ⟨"-", "|"⟩⟩)]
    (by decide +kernel) _ _ rfl rfl
  obtain ⟨hrecord, hlog⟩ := hshows "a" { response := { status := some 200 } } (by decide +kernel)
  refine ⟨s, _, rfl, rfl, (hrecord _).trans ?_, (hlog "l" ⟨⟨"y", [.literal "y"]⟩, ⟨"-", "|"⟩⟩
    (by decide +kernel)).trans ?_⟩
  · show _ = shows _ (some "200;100%;b;")
    exact congrArg _ (by decide +kernel)
  · show _ = shows _ (some "200|100%|b|")
    exact congrArg _ (by decide +kernel)

end Session

end AccessLog
