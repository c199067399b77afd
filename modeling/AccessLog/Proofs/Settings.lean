import AccessLog.Proofs.Json.Record
import AccessLog.Proofs.Json.Written
import AccessLog.Settings.File
import Mathlib.Data.Set.List

/-!
# Settings and the logs that are built from them

A log comes from a document in two stages. The first looks at the shape of the document and at
nothing else: `Lists` says which documents have it and what they set, and **a document is read
exactly if it lists texts for settings**, to the settings with these texts (`readJson_eq_ok_iff`).
The second looks at the format and at nothing else. So a format that does not compile is no reason
to refuse a document, and no fault of a document is ever one of its format.

For the first stage it is enough that each field reads its own part (`describes`); what a run over
members comes to is known for all records. What is added is that a value of settings is a text, so
that a row of members is a row of texts (`membersOf`), and the other way round.

The texts of a document need not be there and may stand in any order, under names that are escaped
or not, so many documents stand for the same settings. One of them is what is written for the
settings, whatever characters they hold.
-/

set_option autoImplicit false

namespace AccessLog.Settings

open Json Json.Decode

/-! ## What a document lists -/

/-- The members of an object that gives texts under names. -/
def membersOf (entries : List (String × String)) : List (String × Tree) :=
  entries.map fun (name, text) => (name, .string text)

/-- A document lists texts for settings: an object under their names, none of them twice, or an
array for the first of them, in this order. -/
inductive Lists : Tree → List (String × String) → Prop where
  | object {entries : List (String × String)} (hdistinct : (entries.map Prod.fst).Nodup)
    (hknown : ∀ e ∈ entries, e.1 ∈ ["format", "empty_placeholder", "delimiter"]) :
    Lists (.record (membersOf entries)) entries
  | array {texts : List String} (hlength : texts.length ≤ 3) :
    Lists (.list (texts.map .string)) (["format", "empty_placeholder", "delimiter"].zip texts)

/-- The settings with these texts. One that is not given has its default. -/
def ofTexts (entries : List (String × String)) : Settings where
  format := (entries.lookup "format").getD ({} : Settings).format
  style := ⟨(entries.lookup "empty_placeholder").getD "-", (entries.lookup "delimiter").getD ""⟩

theorem membersOf_injective : Function.Injective membersOf := by
  refine List.map_injective_iff.mpr ?_
  rintro ⟨name, text⟩ ⟨name', text'⟩ h
  cases h
  rfl

theorem map_fst_membersOf (entries : List (String × String)) :
    (membersOf entries).map Prod.fst = entries.map Prod.fst := by
  simp [membersOf, Function.comp_def]

/-- Texts under names are members under the same names. -/
theorem membersOf_zip (names texts : List String) :
    membersOf (names.zip texts) = names.zip (texts.map .string) := by
  rw [List.zip_map_right]
  rfl

/-- **A document lists texts exactly if they are what it gives**, under names that differ. -/
theorem lists_iff {root : Tree} {entries : List (String × String)} :
    Lists root entries ↔ root.given? schema.names = some (membersOf entries) ∧
      (entries.map Prod.fst).Nodup ∧ ∀ e ∈ entries, e.1 ∈ schema.names := by
  constructor
  · intro h
    cases h with
    | object hdistinct hknown => exact ⟨rfl, hdistinct, hknown⟩
    | @array texts hlength =>
      have hnames : schema.names.Nodup := by decide
      have hgiven : (texts.map Tree.string).length ≤ schema.names.length := by
        rw [List.length_map]
        exact hlength
      refine ⟨?_, (map_fst_zip_sublist schema.names texts).nodup hnames, fun e he => ?_⟩
      · rw [Tree.given?, if_pos hgiven, ← membersOf_zip]
        rfl
      · exact (List.of_mem_zip he).1
  · rintro ⟨hgiven, hdistinct, hknown⟩
    cases root with
    | object given closed =>
      cases closed with
      | false => cases hgiven
      | true =>
        cases hgiven
        exact .object hdistinct hknown
    | array items closed =>
      cases closed with
      | false => cases hgiven
      | true =>
        simp only [Tree.given?, Option.ite_none_right_eq_some, Option.some.injEq] at hgiven
        obtain ⟨hlength, hzip⟩ := hgiven
        -- the elements are texts, so they are listed under the names in order
        obtain ⟨texts, rfl⟩ : ∃ texts : List String, items = texts.map .string := by
          refine ⟨entries.map Prod.snd, ?_⟩
          rw [← List.map_snd_zip hlength, hzip, membersOf, List.map_map, List.map_map]
          rfl
        rw [← membersOf_zip] at hzip
        obtain rfl := membersOf_injective hzip
        rw [List.length_map] at hlength
        exact .array hlength
    | null | bool _ | number _ | string _ | broken => cases hgiven

/-! ## Reading -/

/-- The parts of settings. -/
def parts : List (Json.Part Settings) := [
  ⟨"format", .text, (·.format)⟩,
  ⟨"empty_placeholder", .text, (·.style.placeholder)⟩,
  ⟨"delimiter", .text, (·.style.delimiter)⟩]

theorem describes : Describes parts schema where
  fields := by
    refine .cons ⟨_, _, rfl, reads_string, fun _ _ => rfl, ?_⟩ <|
      .cons ⟨_, _, rfl, reads_string, fun _ _ => rfl, ?_⟩ <|
      .cons ⟨_, _, rfl, reads_string, fun _ _ => rfl, ?_⟩ .nil
    all_goals simp [parts, setFormat, setPlaceholder, setDelimiter]
  nodup := by decide
  ext {a b} h := by
    obtain ⟨format, placeholder, delimiter⟩ := a
    obtain ⟨format', placeholder', delimiter'⟩ := b
    simpa [parts] using h

/-- A part that is a text has the text that is given for it. -/
theorem holds_text_iff {α : Type} {name : String} {get : α → String} {default a : α}
    {entries : List (String × String)} :
    (Json.Part.mk name .text get).Holds default
        (entries.map fun (name, text) => (name, .string text)) a ↔
      get a = (entries.lookup name).getD (get default) := by
  have hlookup := Dict.lookup_map Value.string entries name
  cases hfound : entries.lookup name with
  | none =>
    rw [hfound] at hlookup
    rw [Part.holds_iff_of_missing hlookup]
    rfl
  | some text =>
    rw [hfound] at hlookup
    rw [Part.holds_iff_of_lookup hlookup]
    constructor
    · intro h
      cases h
      rfl
    · intro h
      exact congrArg Value.string h.symm

theorem holds_parts_iff {entries : List (String × String)} {s : Settings} :
    (∀ part ∈ parts, part.Holds {} (entries.map fun (name, text) => (name, .string text)) s) ↔
      s = ofTexts entries := by
  simp only [parts, List.forall_mem_cons, holds_text_iff]
  constructor
  · rintro ⟨hformat, hplaceholder, hdelimiter, -⟩
    obtain ⟨format, placeholder, delimiter⟩ := s
    rw [ofTexts, ← hformat]
    exact congrArg _ (congrArg₂ Style.mk hplaceholder hdelimiter)
  · rintro rfl
    exact ⟨rfl, rfl, rfl, List.forall_mem_nil _⟩

/-- Whatever is read into a part is a text. -/
theorem exists_text_of_means {part : Json.Part Settings} (hpart : part ∈ parts) {v : Value}
    {a : part.β} (h : part.spelling.Means v a) : ∃ text, v = .string text := by
  simp only [parts, List.mem_cons, List.not_mem_nil, or_false] at hpart
  rcases hpart with rfl | rfl | rfl <;> exact ⟨a, h⟩

theorem admits_text {part : Json.Part Settings} (hpart : part ∈ parts) (text : String) :
    part.spelling.shape.Admits (.string text) := by
  simp only [parts, List.mem_cons, List.not_mem_nil, or_false] at hpart
  rcases hpart with rfl | rfl | rfl <;> exact ⟨text, rfl⟩

/-- Members that mean texts are texts. -/
theorem eq_membersOf_of_means {given : List (String × Tree)} {entries : List (String × String)}
    (h : List.Forall₂ Tree.Means given (entries.map fun (name, text) => (name, .string text))) :
    given = membersOf entries := by
  rw [List.forall₂_map_right_iff] at h
  rw [membersOf, ← List.forall₂_eq_eq_eq, List.forall₂_map_right_iff]
  refine h.imp fun m e hm => ?_
  exact Prod.ext hm.1 ((Tree.value?_eq_scalar_iff rfl).mp hm.2)

/-- **A run over members gets to its end only over texts**, and leaves the settings with these
texts. -/
theorem membersOf_of_run {given : List (String × Tree)} {s : Settings} {seen : List String}
    (hrun : given.foldlM schema.member ({}, []) = .ok (s, seen)) :
    ∃ entries, given = membersOf entries ∧ (entries.map Prod.fst).Nodup ∧
      (∀ e ∈ entries, e.1 ∈ schema.names) ∧ s = ofTexts entries := by
  obtain ⟨hdistinct, hnames, values, hmeans, hholds⟩ := describes.foldlM_member_sound hrun
  have hkeys := Tree.map_fst_of_means hmeans
  rw [hkeys] at hdistinct
  have hknown : ∀ e ∈ values, e.1 ∈ parts.map Part.name := by
    intro e he
    obtain ⟨m, hm, hname, -⟩ := exists_mem_of_forall₂ hmeans he
    exact hname ▸ (hnames m hm).2
  -- each value is given for a part, so it is a text
  obtain ⟨entries, rfl⟩ : values ∈
      Set.range (List.map fun e : String × String => (e.1, Value.string e.2)) := by
    rw [Set.range_list_map]
    intro e he
    obtain ⟨part, hpart, hname⟩ := List.mem_map.mp (hknown e he)
    have hlookup : values.lookup part.name = some e.2 :=
      (Dict.lookup_eq_some_iff hdistinct).mpr (hname ▸ he)
    obtain ⟨text, htext⟩ :=
      exists_text_of_means hpart ((Part.holds_iff_of_lookup hlookup).mp (hholds part hpart))
    exact ⟨(e.1, text), Prod.ext rfl htext.symm⟩
  rw [List.map_map] at hdistinct
  exact ⟨entries, eq_membersOf_of_means hmeans, hdistinct,
    fun e he => hknown _ (List.mem_map_of_mem he), holds_parts_iff.mp hholds⟩

/-- It gets to its end over all texts under names of their own. -/
theorem run_membersOf {entries : List (String × String)} (hdistinct : (entries.map Prod.fst).Nodup)
    (hknown : ∀ e ∈ entries, e.1 ∈ schema.names) :
    ∃ seen, (membersOf entries).foldlM schema.member ({}, []) = .ok (ofTexts entries, seen) := by
  have hmembers : ((membersOf entries).map Prod.fst).Nodup := by
    rwa [map_fst_membersOf]
  have hfresh : ∀ m ∈ membersOf entries, m.1 ∉ ([] : List String) := by simp
  have htrees : ∀ m ∈ membersOf entries, m.2.Distinct := List.forall_mem_map.mpr fun _ _ => rfl
  have hadmits : ∀ m ∈ membersOf entries, ∃ part ∈ parts, part.name = m.1 ∧
      ∃ v, m.2.value? = some v ∧ part.spelling.shape.Admits v := by
    refine List.forall_mem_map.mpr fun e he => ?_
    have hname := hknown e he
    rw [describes.names_eq] at hname
    obtain ⟨part, hpart, hname⟩ := List.mem_map.mp hname
    exact ⟨part, hpart, hname, .string e.2, rfl, admits_text hpart e.2⟩
  obtain ⟨⟨s, seen⟩, hrun⟩ :=
    describes.foldlM_member_accepts (a := {}) hmembers hfresh htrees hadmits
  obtain ⟨others, hothers, -, -, rfl⟩ := membersOf_of_run hrun
  obtain rfl := membersOf_injective hothers
  exact ⟨seen, hrun⟩

theorem read_eq_ok_iff {root : Tree} {s : Settings} :
    schema.read .streaming {} root = .ok s ↔
      ∃ entries, Lists root entries ∧ s = ofTexts entries := by
  simp only [Decode.read_eq_ok_iff describes.names_nodup, lists_iff]
  constructor
  · rintro ⟨given, seen, hgiven, hrun⟩
    obtain ⟨entries, rfl, hdistinct, hknown, rfl⟩ := membersOf_of_run hrun
    exact ⟨entries, ⟨hgiven, hdistinct, hknown⟩, rfl⟩
  · rintro ⟨entries, ⟨hgiven, hdistinct, hknown⟩, rfl⟩
    obtain ⟨seen, hrun⟩ := run_membersOf hdistinct hknown
    exact ⟨_, seen, hgiven, hrun⟩

/-- **A document is read exactly if it lists texts for settings**, to the settings with these
texts. -/
theorem readJson_eq_ok_iff {source : String} {s : Settings} :
    readJson source = .ok s ↔
      ∃ root entries, Document.read source = ⟨root, true⟩ ∧ Lists root entries ∧
        s = ofTexts entries := by
  unfold readJson Document.decode
  simp only [bind_eq_ok_iff, ended_eq_ok_iff, pure_eq_ok_iff, read_eq_ok_iff]
  constructor
  · rintro ⟨_, ⟨entries, hlists, rfl⟩, -, hended, rfl⟩
    exact ⟨_, entries, by rw [← hended], hlists, rfl⟩
  · rintro ⟨root, entries, hread, hlists, rfl⟩
    rw [hread]
    exact ⟨_, ⟨entries, hlists, rfl⟩, (), rfl, rfl⟩

/-! ## Writing -/

/-- The texts of settings, each under its name. -/
def texts (s : Settings) : List (String × String) := [
  ("format", s.format),
  ("empty_placeholder", s.style.placeholder),
  ("delimiter", s.style.delimiter)]

/-- **What is written for settings lists all of their texts.** -/
theorem lists_encode (s : Settings) : Lists s.encode s.texts := by
  have hdistinct : (s.texts.map Prod.fst).Nodup := by simp [texts]
  have hknown : ∀ e ∈ s.texts, e.1 ∈ ["format", "empty_placeholder", "delimiter"] := by
    simp [texts]
  exact .object hdistinct hknown

theorem readJson_text (s : Settings) : readJson s.text = .ok s := by
  have hwritten : Document.read s.text = ⟨s.encode, true⟩ :=
    Tree.read_compact rfl (Nat.le_of_ble_eq_true rfl)
  exact readJson_eq_ok_iff.mpr ⟨s.encode, s.texts, hwritten, s.lists_encode, rfl⟩

/-! ## Building -/

theorem build_eq_ok_iff {s : Settings} {log : Log} :
    s.build = .ok log ↔ compile s.format = .ok log.program ∧ log.style = s.style := by
  obtain ⟨program, style⟩ := log
  simp only [build, bind_eq_ok_iff, pure_eq_ok_iff, Log.mk.injEq]
  constructor
  · rintro ⟨_, hcompile, rfl, rfl⟩
    exact ⟨hcompile, rfl⟩
  · rintro ⟨hcompile, rfl⟩
    exact ⟨program, hcompile, rfl, rfl⟩

theorem build_eq_error_iff {s : Settings} {e : CompileError} :
    s.build = .error e ↔ compile s.format = .error e := by
  rw [build, bind_eq_error_iff]
  constructor
  · rintro (hcompile | ⟨_, -, h⟩)
    · exact hcompile
    · cases h
  · exact .inl

/-- A document has no fault that is one of a format. -/
theorem read_json_ne_compile (source : String) (e : CompileError) :
    read .json source ≠ .error (.compile e) := by
  intro h
  obtain ⟨fault, -, hfault⟩ := mapError_eq_error_iff.mp h
  cases fault <;> cases hfault

/-- **Settings are read by their shape and built by their format.** A document is read exactly if it
is an object of texts under names of settings, none of them twice, or an array of no more texts than
there are settings; what it does not list has its default. What is read can be built exactly if the
format compiles, and otherwise for want of that. The log writes lines and records as the program of
the format does in the style that was read. All settings can be written and are read from what is
written. -/
theorem read_then_built :
    (∀ source s, readJson source = .ok s ↔ ∃ root entries,
      Document.read source = ⟨root, true⟩ ∧ Lists root entries ∧ s = ofTexts entries) ∧
    (∀ source e, read .json source ≠ .error (.compile e)) ∧
    (∀ (s : Settings) log,
      s.build = .ok log ↔ compile s.format = .ok log.program ∧ log.style = s.style) ∧
    (∀ (s : Settings) e, s.build = .error e ↔ compile s.format = .error e) ∧
    (∀ (s : Settings) log, s.build = .ok log →
      ∀ {m : Type → Type} [Monad m] (provider : Provider m),
        log.render provider = log.program.render provider s.style ∧
          ∀ r, log.renderRecord r provider = r.render provider s.style) ∧
    ∀ s : Settings, readJson s.text = .ok s := by
  refine ⟨fun _ _ => readJson_eq_ok_iff, read_json_ne_compile, fun _ _ => build_eq_ok_iff,
    fun _ _ => build_eq_error_iff, ?_, readJson_text⟩
  intro s log hbuild m _ provider
  rw [← (build_eq_ok_iff.mp hbuild).2]
  exact ⟨rfl, fun _ => rfl⟩

/-- Settings in an array, whose format does not compile; and a name with an escape in an object
whose members are in another order. -/
theorem read_then_built_unordered :
    readJson "[\"%NOPE%\",\"?\"]" = .ok ⟨"%NOPE%", ⟨"?", ""⟩⟩ ∧
    build ⟨"%NOPE%", ⟨"?", ""⟩⟩ = .error ⟨.unknownField "NOPE", 0⟩ ∧
    (∃ root entries,
      Document.read "\x7b\"delimiter\":\"|\",\"\\u0066ormat\":\"%%\"\x7d" = ⟨root, true⟩ ∧
      Lists root entries ∧ (⟨"%%", ⟨"-", "|"⟩⟩ : Settings) = ofTexts entries) ∧
    ∃ log, build ⟨"%%", ⟨"-", "|"⟩⟩ = .ok log ∧
      log.render (m := Id) (.minimal "" none none)
        = log.program.render (m := Id) (.minimal "" none none) ⟨"-", "|"⟩ := by
  obtain ⟨hread, -, -, hfails, hwrites, -⟩ := read_then_built
  have hobject : readJson "\x7b\"delimiter\":\"|\",\"\\u0066ormat\":\"%%\"\x7d"
      = .ok ⟨"%%", ⟨"-", "|"⟩⟩ := by
    decide +kernel
  have hbuild : build ⟨"%%", ⟨"-", "|"⟩⟩ = .ok ⟨⟨"%%", [.literal "%"]⟩, ⟨"-", "|"⟩⟩ := rfl
  refine ⟨by decide +kernel, (hfails _ _).mpr rfl, (hread _ _).mp hobject, _, hbuild, ?_⟩
  exact (hwrites _ _ hbuild _).1

end AccessLog.Settings
