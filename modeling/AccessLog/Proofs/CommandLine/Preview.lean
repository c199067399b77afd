import AccessLog.Proofs.CommandLine.Arguments
import AccessLog.Proofs.CommandLine.Report
import AccessLog.Proofs.Json.Record
import AccessLog.Proofs.Json.Written
import AccessLog.Proofs.Render.Denotation

/-!
# All or nothing

A preview goes through four stages: it loads settings, reads snapshots, compiles the format and
renders a line for each snapshot. What it comes to is said by two relations. `Preview.Renders`
holds of the lines of a preview whose stages all succeed, `Preview.Fails` of the failure of the
first stage that does not. **The program writes the lines that a preview renders, or it writes
nothing and reports the failure** (`run_render`), by the name of what it was about to do and with
its causes (`Failure.Told`).

Each stage has a lemma for what it gives and one for how it fails, and the two relations are put
together from them along the chain of the stages.
-/

set_option autoImplicit false

namespace AccessLog

open Json

namespace Settings

/-! ## Settings that are only a format -/

/-- A document in which the format is set and nothing else. -/
inductive OnlyFormat (format : String) : Kind → String → Prop where
  | yaml {source : String} (h : Yaml.readMapping? source = some [("format", format)]) :
    OnlyFormat format .yaml source
  /-- An object with one member, or an array with one element. -/
  | json {source : String} {root : Tree} (hread : Document.read source = ⟨root, true⟩)
    (h : root.given? schema.names = some [("format", .string format)]) :
    OnlyFormat format .json source

theorem schema_names_nodup : schema.names.Nodup := by decide

/-- The style is that of the defaults. -/
theorem OnlyFormat.read_eq {format source : String} {kind : Kind}
    (h : OnlyFormat format kind source) : read kind source = .ok { format } := by
  cases h with
  | yaml h =>
    simp only [read, readYaml?, h]
    rfl
  | json hread h =>
    have hrecord : schema.read .streaming {} _ = .ok ({ format } : Settings) :=
      (Decode.read_eq_ok_iff schema_names_nodup).mpr ⟨_, ["format"], h, rfl⟩
    have hdecode : readJson source = .ok { format } := by
      rw [readJson, hread, Document.decode, hrecord]
      rfl
    rw [read, hdecode]
    rfl

/-- Every format can be put into such a document. -/
theorem onlyFormat_compact (format : String) :
    OnlyFormat format .json (Tree.record [("format", .string format)]).compact :=
  .json (Tree.read_compact rfl (Nat.le_of_ble_eq_true rfl)) rfl

end Settings

/-- What is shown of a fault. -/
def Json.Fault.words : Fault → String
  | .malformed => "malformed document"
  | .mismatch m => m.message

namespace CommandLine

/-! ## What a preview comes to -/

section

variable (around : Surroundings Id)

/-- The settings that a source stands for. -/
inductive Source.Gives : Source → Settings → Prop where
  | template (format : String) : Gives (.template format) { format }
  | config {path : String} {settings : Settings}
    (h : Settings.load around.readFile path = .ok settings) : Gives (.config path) settings

namespace Preview

/-- The document with the snapshots. -/
def document (p : Preview) : Except ReadFailure String :=
  if isInput p.snapshots then around.readInput else around.readFile p.snapshots

/-- The style of the lines: what the command says of it goes before the settings. -/
def style (p : Preview) (settings : Settings) : Style :=
  ⟨p.placeholder.getD settings.style.placeholder, p.delimiter.getD settings.style.delimiter⟩

/-- The line for a snapshot, with the lines added to it. -/
def line? (p : Preview) (settings : Settings) (program : Program) (s : Snapshot) : Option String :=
  (Record.mk program p.lines).render s.provider (p.style settings)

/-- Every stage of a preview succeeds, and these are its lines, in the order of the snapshots. -/
inductive Renders (p : Preview) : List String → Prop where
  | all {settings : Settings} {source : String} {snapshots : List Snapshot} {program : Program}
    {lines : List String} (hsettings : p.source.Gives around settings)
    (hdocument : p.document around = .ok source)
    (hsnapshots : Snapshot.readAll source = .ok snapshots)
    (hprogram : compile settings.format = .ok program)
    (hlines : List.Forall₂ (fun s line => p.line? settings program s = some line) snapshots lines) :
    Renders p lines

/-- The first stage of a preview that fails, and how. -/
inductive Fails (p : Preview) : Failure → Prop where
  | settings {path : String} {e : SettingsError} {causes : List String}
    (hsource : p.source = .config path) (h : Settings.load around.readFile path = .error e)
    (hcauses : e.Explains causes) : Fails p (.reported ("failed to load config " ++ path) causes)
  | document {settings : Settings} {e : ReadFailure} (hsettings : p.source.Gives around settings)
    (h : p.document around = .error e) :
    Fails p (.reported (if isInput p.snapshots then "failed to read stdin"
      else "failed to read " ++ p.snapshots) [e.message])
  | snapshots {settings : Settings} {source : String} {fault : Fault}
    (hsettings : p.source.Gives around settings) (hdocument : p.document around = .ok source)
    (h : Snapshot.readAll source = .error fault) :
    Fails p (.reported "invalid snapshot JSON" [fault.words])
  | format {settings : Settings} {source : String} {snapshots : List Snapshot} {e : CompileError}
    (hsettings : p.source.Gives around settings) (hdocument : p.document around = .ok source)
    (hsnapshots : Snapshot.readAll source = .ok snapshots)
    (h : compile settings.format = .error e) :
    Fails p (.reported "invalid format"
      ["invalid access log format: " ++ e.message, e.message])
  | line {settings : Settings} {source : String} {snapshots : List Snapshot} {program : Program}
    {s : Snapshot} (hsettings : p.source.Gives around settings)
    (hdocument : p.document around = .ok source)
    (hsnapshots : Snapshot.readAll source = .ok snapshots)
    (hprogram : compile settings.format = .ok program) (hs : s ∈ snapshots)
    (h : p.line? settings program s = none) : Fails p .unwritable

end Preview

end

/-! ## The stages -/

variable {around : Surroundings Id} {p : Preview}

theorem snapshotsOf_eq (source : String) :
    snapshotsOf source
      = (Snapshot.readAll source).mapError fun fault =>
          .reported "invalid snapshot JSON" [fault.words] := by
  unfold snapshotsOf
  cases Snapshot.readAll source with
  | ok snapshots => rfl
  | error fault => cases fault <;> rfl

theorem renderLines_eq (settings : Settings) (snapshots : List Snapshot) :
    renderLines (p.override settings) p.lines snapshots
      = ((compile settings.format).mapError fun e =>
          .reported "invalid format" (SettingsError.compile e).causes) >>= fun program =>
        match snapshots.mapM (p.line? settings program) with
        | some lines => .ok lines
        | none => .error .unwritable := by
  have hformat : (p.override settings).format = settings.format := rfl
  simp only [renderLines, Settings.buildOrExplain, Settings.build, hformat]
  cases compile settings.format with
  | error e => rfl
  | ok program =>
    have hrecord : (Log.mk program (p.style settings)).record.pushAll p.lines
        = ⟨program, p.lines⟩ := Record.pushAll_eq _ _
    show (match snapshots.mapM fun s => ((Log.mk program (p.style settings)).record.pushAll
      p.lines).render s.provider (p.style settings) with
      | some lines => _
      | none => _) = _
    rw [hrecord]
    rfl

theorem renderLines_eq_ok_iff {settings : Settings} {snapshots : List Snapshot}
    {lines : List String} :
    renderLines (p.override settings) p.lines snapshots = .ok lines ↔
      ∃ program, compile settings.format = .ok program ∧
        List.Forall₂ (fun s line => p.line? settings program s = some line) snapshots lines := by
  rw [renderLines_eq, bind_eq_ok_iff]
  refine exists_congr fun program => and_congr mapError_eq_ok_iff ?_
  rw [← mapM_eq_some_iff]
  cases snapshots.mapM (p.line? settings program) <;> simp

theorem renderLines_eq_error_iff {settings : Settings} {snapshots : List Snapshot}
    {failure : Failure} :
    renderLines (p.override settings) p.lines snapshots = .error failure ↔
      (∃ e, compile settings.format = .error e ∧
        .reported "invalid format" (SettingsError.compile e).causes = failure) ∨
      ∃ program, compile settings.format = .ok program ∧
        (∃ s ∈ snapshots, p.line? settings program s = none) ∧ .unwritable = failure := by
  rw [renderLines_eq, bind_eq_error_iff, mapError_eq_error_iff]
  refine or_congr_right (exists_congr fun program => and_congr mapError_eq_ok_iff ?_)
  rw [← mapM_eq_none_iff]
  cases snapshots.mapM (p.line? settings program) <;> simp

namespace Preview

theorem settings_eq_ok_iff {settings : Settings} :
    p.settings around = .ok settings ↔ p.source.Gives around settings := by
  unfold Preview.settings
  cases p.source with
  | template format =>
    constructor
    · intro h
      cases h
      exact .template format
    · intro h
      cases h
      rfl
  | config path =>
    constructor
    · intro h
      exact .config (mapError_eq_ok_iff.mp h)
    · intro h
      cases h with
      | config h => exact mapError_eq_ok_iff.mpr h

theorem settings_eq_error_iff {failure : Failure} :
    p.settings around = .error failure ↔ ∃ path e, p.source = .config path ∧
      Settings.load around.readFile path = .error e ∧
      .reported ("failed to load config " ++ path) e.causes = failure := by
  unfold Preview.settings
  cases hsource : p.source with
  | template format =>
    constructor
    · intro h
      cases h
    · rintro ⟨path, e, h, -⟩
      cases h
  | config path =>
    constructor
    · intro h
      obtain ⟨e, he, hfailure⟩ := mapError_eq_error_iff.mp h
      exact ⟨path, e, rfl, he, hfailure⟩
    · rintro ⟨path, e, hpath, he, hfailure⟩
      cases hpath
      exact mapError_eq_error_iff.mpr ⟨e, he, hfailure⟩

theorem loadSnapshots_eq : p.loadSnapshots around
    = ((p.document around).mapError fun e =>
        .reported (if isInput p.snapshots then "failed to read stdin"
          else "failed to read " ++ p.snapshots) [e.message]) >>= snapshotsOf := by
  unfold loadSnapshots document
  by_cases hinput : isInput p.snapshots
  · simp only [hinput, if_true]
    show (match around.readInput with | .ok source => _ | .error e => _) = _
    cases around.readInput <;> rfl
  · simp only [hinput]
    show (match around.readFile p.snapshots with | .ok source => _ | .error e => _) = _
    cases around.readFile p.snapshots <;> rfl

theorem render_eq : p.render around
    = bind (m := Except Failure) (p.settings (m := Id) around) fun settings =>
      bind (m := Except Failure) (p.loadSnapshots (m := Id) around) fun snapshots =>
      renderLines (p.override settings) p.lines snapshots := by
  unfold Preview.render
  cases p.settings (m := Id) around with
  | error e => rfl
  | ok settings => cases p.loadSnapshots (m := Id) around <;> rfl

theorem loadSnapshots_eq_ok_iff {snapshots : List Snapshot} :
    p.loadSnapshots around = .ok snapshots ↔
      ∃ source, p.document around = .ok source ∧ Snapshot.readAll source = .ok snapshots := by
  rw [loadSnapshots_eq, bind_eq_ok_iff]
  refine exists_congr fun source => and_congr mapError_eq_ok_iff ?_
  rw [snapshotsOf_eq, mapError_eq_ok_iff]

theorem loadSnapshots_eq_error_iff {failure : Failure} :
    p.loadSnapshots around = .error failure ↔
      (∃ e, p.document around = .error e ∧
        .reported (if isInput p.snapshots then "failed to read stdin"
          else "failed to read " ++ p.snapshots) [e.message] = failure) ∨
      ∃ source, p.document around = .ok source ∧ ∃ fault, Snapshot.readAll source = .error fault ∧
        .reported "invalid snapshot JSON" [fault.words] = failure := by
  rw [loadSnapshots_eq, bind_eq_error_iff, mapError_eq_error_iff]
  refine or_congr_right (exists_congr fun source => and_congr mapError_eq_ok_iff ?_)
  rw [snapshotsOf_eq, mapError_eq_error_iff]

/-! ## The chain of the stages -/

theorem render_eq_ok_iff {lines : List String} :
    p.render around = .ok lines ↔ p.Renders around lines := by
  rw [render_eq, bind_eq_ok_iff]
  constructor
  · rintro ⟨settings, hsettings, h⟩
    obtain ⟨snapshots, hsnapshots, h⟩ := bind_eq_ok_iff.mp h
    obtain ⟨source, hdocument, hread⟩ := loadSnapshots_eq_ok_iff.mp hsnapshots
    obtain ⟨program, hprogram, hlines⟩ := renderLines_eq_ok_iff.mp h
    exact .all (settings_eq_ok_iff.mp hsettings) hdocument hread hprogram hlines
  · intro h
    cases h with
    | @all settings source snapshots program _ hsettings hdocument hread hprogram hlines =>
      refine ⟨settings, settings_eq_ok_iff.mpr hsettings, bind_eq_ok_iff.mpr ⟨snapshots, ?_, ?_⟩⟩
      · exact loadSnapshots_eq_ok_iff.mpr ⟨source, hdocument, hread⟩
      · exact renderLines_eq_ok_iff.mpr ⟨program, hprogram, hlines⟩

/-- A preview fails in its settings or, when they are there, behind them. -/
theorem render_eq_error_iff_stages {failure : Failure} :
    p.render around = .error failure ↔
      p.settings around = .error failure ∨ ∃ settings, p.source.Gives around settings ∧
        (p.loadSnapshots around = .error failure ∨ ∃ snapshots,
          p.loadSnapshots around = .ok snapshots ∧
            renderLines (p.override settings) p.lines snapshots = .error failure) := by
  rw [render_eq, bind_eq_error_iff]
  refine or_congr_right (exists_congr fun settings => ?_)
  exact and_congr settings_eq_ok_iff bind_eq_error_iff

theorem render_eq_error_iff {failure : Failure} :
    p.render around = .error failure ↔ p.Fails around failure := by
  rw [render_eq_error_iff_stages]
  constructor
  · rintro (h | ⟨settings, hgives, h | ⟨snapshots, hsnapshots, h⟩⟩)
    · obtain ⟨path, e, hsource, he, rfl⟩ := settings_eq_error_iff.mp h
      exact .settings hsource he (SettingsError.explains_iff.mpr rfl)
    · rcases loadSnapshots_eq_error_iff.mp h with
        ⟨e, he, rfl⟩ | ⟨source, hdocument, fault, hfault, rfl⟩
      · exact .document hgives he
      · exact .snapshots hgives hdocument hfault
    · obtain ⟨source, hdocument, hread⟩ := loadSnapshots_eq_ok_iff.mp hsnapshots
      rcases renderLines_eq_error_iff.mp h with
        ⟨e, he, rfl⟩ | ⟨program, hprogram, ⟨s, hs, hnone⟩, rfl⟩
      · exact .format hgives hdocument hread he
      · exact .line hgives hdocument hread hprogram hs hnone
  · intro h
    cases h with
    | settings hsource he hcauses =>
      obtain rfl := SettingsError.explains_iff.mp hcauses
      exact .inl (settings_eq_error_iff.mpr ⟨_, _, hsource, he, rfl⟩)
    | @document settings e hgives he =>
      refine .inr ⟨settings, hgives, .inl ?_⟩
      exact loadSnapshots_eq_error_iff.mpr (.inl ⟨e, he, rfl⟩)
    | @snapshots settings source fault hgives hdocument hfault =>
      refine .inr ⟨settings, hgives, .inl ?_⟩
      exact loadSnapshots_eq_error_iff.mpr (.inr ⟨source, hdocument, fault, hfault, rfl⟩)
    | @format settings source snapshots e hgives hdocument hread he =>
      have hsnapshots := loadSnapshots_eq_ok_iff.mpr ⟨source, hdocument, hread⟩
      refine .inr ⟨settings, hgives, .inr ⟨snapshots, hsnapshots, ?_⟩⟩
      exact renderLines_eq_error_iff.mpr (.inl ⟨e, he, rfl⟩)
    | @line settings source snapshots program s hgives hdocument hread hprogram hs hnone =>
      have hsnapshots := loadSnapshots_eq_ok_iff.mpr ⟨source, hdocument, hread⟩
      refine .inr ⟨settings, hgives, .inr ⟨snapshots, hsnapshots, ?_⟩⟩
      exact renderLines_eq_error_iff.mpr (.inr ⟨program, hprogram, ⟨s, hs, hnone⟩, rfl⟩)

/-- A template is as good as a file in which it is set as the format. -/
theorem render_onlyFormat {format path source : String} {kind : Settings.Kind}
    (hsource : p.source = .template format) (hread : around.readFile path = .ok source)
    (hkind : (Path.extension? path).bind Settings.Kind.ofExtension? = some kind)
    (h : Settings.OnlyFormat format kind source) :
    Preview.render { p with source := .config path } around = p.render around := by
  have hload : Settings.load around.readFile path = .ok { format } := by
    simp only [Settings.load, hread, bind, pure, hkind]
    exact h.read_eq
  have hgives : p.settings around = .ok { format } :=
    settings_eq_ok_iff.mpr (hsource ▸ .template format)
  have hgives' : Preview.settings { p with source := .config path } around = .ok { format } :=
    settings_eq_ok_iff.mpr (.config hload)
  rw [render_eq, render_eq, hgives, hgives']
  rfl

end Preview

/-! ## The whole program -/

/-- No stage fails without a cause. -/
theorem Preview.Fails.explained {failure : Failure} (h : p.Fails around failure) :
    failure.Explained := by
  cases h with
  | settings _ _ hcauses => exact explained_causes _ hcauses
  | document _ _ | snapshots _ _ _ => exact .one _ _
  | format _ _ _ _ => exact .two _ _ _
  | line _ _ _ _ _ _ => exact .aborted

theorem Failure.outcome_eq (failure : Failure) :
    failure.outcome.status ≠ 0 ∧ failure.outcome.output = "" := by
  cases failure <;> simp [Failure.outcome]

theorem run_eq {arguments : List String} (h : read arguments = .ok (.render p)) :
    run around arguments = match p.render (m := Id) around with
      | .ok texts => ⟨0, lines texts, ""⟩
      | .error failure => failure.outcome := by
  unfold run
  rw [h]
  show (match p.render (m := Id) around with | .ok texts => _ | .error e => _) = _
  cases p.render (m := Id) around <;> rfl

/-- **The program writes every line of a preview, or nothing but a report of the first failure.**
A template is as good as a file in which it is set as the format. -/
theorem run_render {arguments : List String} {p : Preview} (h : read arguments = .ok (.render p))
    (around : Surroundings Id) :
    (∀ lines, p.Renders around lines →
      run around arguments = ⟨0, String.join (lines.map (· ++ "\n")), ""⟩) ∧
    ((¬ ∃ lines, p.Renders around lines) → ∃ failure, p.Fails around failure) ∧
    (∀ failure, p.Fails around failure → run around arguments = failure.outcome ∧
      failure.outcome.status ≠ 0 ∧ failure.outcome.output = "" ∧
      failure.Told failure.outcome.errors) ∧
    (∀ format path kind source arguments', p.source = .template format →
      around.readFile path = .ok source →
      (Path.extension? path).bind Settings.Kind.ofExtension? = some kind →
      Settings.OnlyFormat format kind source →
      read arguments' = .ok (.render { p with source := .config path }) →
      run around arguments' = run around arguments) := by
  refine ⟨?_, ?_, ?_, ?_⟩
  · intro texts htexts
    rw [run_eq h, Preview.render_eq_ok_iff.mpr htexts]
    rfl
  · intro hnone
    cases hrender : p.render (m := Id) around with
    | ok texts => exact absurd ⟨texts, Preview.render_eq_ok_iff.mp hrender⟩ hnone
    | error failure => exact ⟨failure, Preview.render_eq_error_iff.mp hrender⟩
  · intro failure hfails
    rw [run_eq h, Preview.render_eq_error_iff.mpr hfails]
    obtain ⟨hstatus, houtput⟩ := failure.outcome_eq
    exact ⟨rfl, hstatus, houtput, Failure.told_outcome hfails.explained⟩
  · intro format path kind source arguments' hsource hread hkind honly h'
    rw [run_eq h, run_eq h', Preview.render_onlyFormat hsource hread hkind honly]

/-- A placeholder may be empty. Without snapshots a format still has to compile; what is wrong with
snapshots is reported before it, and settings that are not there before that. The last one is a
template and a file with nothing but the format. -/
theorem run_render_status :
    run (m := Id) ⟨fun _ => .error .noSuchFile,
          .ok "[\x7b\"response\":\x7b\"status\":200\x7d\x7d,\x7b\x7d]"⟩
        (Preview.arguments ⟨.template "%RESPONSE_CODE%", some "", none, ["end"], "-"⟩)
      = ⟨0, "200end\nend\n", ""⟩ ∧
    run (m := Id) ⟨fun _ => .error .noSuchFile, .ok "[]"⟩
        (Preview.arguments ⟨.template "%", none, none, [], "-"⟩)
      = ⟨1, "", "Error: invalid format\n\nCaused by:\n"
          ++ "    0: invalid access log format: unterminated field starting at offset 0\n"
          ++ "    1: unterminated field starting at offset 0\n"⟩ ∧
    run (m := Id) ⟨fun _ => .error .noSuchFile, .ok "["⟩
        (Preview.arguments ⟨.template "%", none, none, [], "-"⟩)
      = ⟨1, "", "Error: invalid snapshot JSON\n\nCaused by:\n    malformed document\n"⟩ ∧
    run (m := Id) ⟨fun _ => .error .noSuchFile, .ok "["⟩
        (Preview.arguments ⟨.config "a.json", none, none, [], "-"⟩)
      = ⟨1, "", "Error: failed to load config a.json\n\nCaused by:\n    0: could not read "
          ++ "access log config a.json: No such file or directory (os error 2)\n"
          ++ "    1: No such file or directory (os error 2)\n"⟩ ∧
    run (m := Id) ⟨fun _ => .ok (Tree.record [("format", .string "%HOST%")]).compact, .ok "[]"⟩
        (Preview.arguments ⟨.config "a.json", none, none, [], "-"⟩)
      = run (m := Id)
        ⟨fun _ => .ok (Tree.record [("format", .string "%HOST%")]).compact, .ok "[]"⟩
        (Preview.arguments ⟨.template "%HOST%", none, none, [], "-"⟩) := by
  have htemplate : ∀ format placeholder lines, Preview.Named
      ⟨.template format, placeholder, none, lines, "-"⟩ :=
    fun _ _ _ => ⟨by simp, by simp⟩
  have hconfig : Preview.Named ⟨.config "a.json", none, none, [], "-"⟩ := ⟨by simp, by decide⟩
  have hsnapshots : Snapshot.readAll "[\x7b\"response\":\x7b\"status\":200\x7d\x7d,\x7b\x7d]"
      = .ok [{ response := { status := some 200 } }, {}] := by decide +kernel
  have hprogram : compile "%RESPONSE_CODE%"
      = .ok ⟨"%RESPONSE_CODE%", [⟨.field (.int .responseCode), none⟩]⟩ := rfl
  have hempty : Snapshot.readAll "[]" = .ok [] := by decide +kernel
  have hmalformed : Snapshot.readAll "[" = .error .malformed := by decide +kernel
  have hmissing : Settings.load (m := Id) (fun _ => .error .noSuchFile) "a.json"
      = .error (.unreadable "a.json" .noSuchFile) := rfl
  refine ⟨?_, ?_, ?_, ?_, ?_⟩
  · refine (run_render (read_arguments (htemplate _ _ _)) _).1 ["200end", "end"] ?_
    refine .all (.template _) rfl hsnapshots hprogram (.cons ?_ (.cons ?_ .nil))
    · decide +kernel
    · decide +kernel
  · have hfails : Preview.Fails ⟨fun _ => .error .noSuchFile, .ok "[]"⟩
        ⟨.template "%", none, none, [], "-"⟩ _ := .format (.template _) rfl hempty rfl
    exact Eq.trans (α := Outcome)
      ((run_render (read_arguments (htemplate _ _ _)) _).2.2.1 _ hfails).1 (by decide +kernel)
  · have hfails : Preview.Fails ⟨fun _ => .error .noSuchFile, .ok "["⟩
        ⟨.template "%", none, none, [], "-"⟩ _ := .snapshots (.template _) rfl hmalformed
    exact Eq.trans (α := Outcome)
      ((run_render (read_arguments (htemplate _ _ _)) _).2.2.1 _ hfails).1 (by decide +kernel)
  · have hfails : Preview.Fails ⟨fun _ => .error .noSuchFile, .ok "["⟩
        ⟨.config "a.json", none, none, [], "-"⟩ _ :=
      .settings rfl hmissing (.unreadable "a.json" .noSuchFile)
    exact Eq.trans (α := Outcome)
      ((run_render (read_arguments hconfig) _).2.2.1 _ hfails).1 (by decide +kernel)
  · exact (run_render (read_arguments (htemplate _ _ _)) _).2.2.2 _ _ .json _ _ rfl rfl rfl
      (Settings.onlyFormat_compact _) (read_arguments hconfig)

end CommandLine
end AccessLog
