import AccessLog.CommandLine.Arguments
import AccessLog.Proofs.Numeral
import AccessLog.Proofs.Outcome
import Mathlib.Data.List.TakeDrop

/-!
# Arguments that ask for a preview

A preview can be spelled as arguments: every option with its value attached, and the snapshots
behind two dashes. **Reading them gives the preview back** (`read_arguments`), whatever its texts
are, so there is no preview that cannot be asked for. A value is safe behind an equals sign even
when it is empty or begins with a dash, and a path is behind two dashes.

A step of the reading takes one option into the draft (`readItems_attach`), and the arguments are
gone through option by option.
-/

set_option autoImplicit false

namespace AccessLog.CommandLine

/-- An option with its value attached. -/
def attach (name value : String) : String := "--" ++ name ++ "=" ++ value

def Source.argument : Source → String
  | .template format => attach "template" format
  | .config path => attach "config" path

namespace Preview

/-- Arguments that ask for a preview. -/
def arguments (p : Preview) : List String :=
  "render" :: p.source.argument :: (p.placeholder.toList.map (attach "placeholder") ++
    (p.delimiter.toList.map (attach "delimiter") ++
      (p.lines.map (attach "append") ++ ["--", p.snapshots])))

/-- The paths of a preview are not empty. -/
structure Named (p : Preview) : Prop where
  config : p.source ≠ .config ""
  snapshots : p.snapshots ≠ ""

end Preview

/-! ## One option -/

theorem splitAttached_eq {name value : List Char} (h : '=' ∉ name) :
    splitAttached (name ++ '=' :: value) = (name, some (String.ofList value)) := by
  have hname : ∀ c ∈ name, (c != '=') = true := by
    intro c hc
    have hne : c ≠ '=' := fun heq => h (heq ▸ hc)
    simpa using hne
  have hvalue : ∀ c ∈ ('=' :: value).head?, (c != '=') = false := by simp
  rw [splitAttached, List.span_eq_takeWhile_dropWhile, takeWhile_append hname hvalue,
    dropWhile_append hname hvalue]

/-- The options of a preview are found by their names, and all of them have values. -/
theorem find?_long {o : Opt RenderOption} (h : o ∈ RenderOption.all) :
    RenderOption.all.find? (·.long == o.long) = some o ∧ o.valued = true ∧
      '=' ∉ o.long.toList := by
  simp only [RenderOption.all, List.mem_cons, List.not_mem_nil, or_false] at h
  rcases h with rfl | rfl | rfl | rfl | rfl
  all_goals exact ⟨rfl, rfl, by decide⟩

theorem takeItem_attach {o : Opt RenderOption} (h : o ∈ RenderOption.all) (value : String)
    (rest : List String) :
    takeItem RenderOption.all .render (attach o.long value) rest
      = .ok (.option o.key ("--" ++ o.long) value, rest) := by
  obtain ⟨hfind, hvalued, hplain⟩ := find?_long h
  have hchars : (attach o.long value).toList
      = '-' :: '-' :: (o.long.toList ++ '=' :: value.toList) := by
    simp [attach, String.toList_append]
  simp only [takeItem, hchars, splitAttached_eq hplain, String.ofList_toList, hfind, takeOption,
    hvalued, if_true]

section

variable {κ σ : Type} {options : List (Opt κ)} {topic : Topic} {take : σ → Item κ → Except Stop σ}

theorem readItems_cons {state state' : σ} {argument : String} {rest after : List String}
    {item : Item κ} (hne : argument ≠ "--")
    (hitem : takeItem options topic argument rest = .ok (item, after))
    (hstate : take state item = .ok state') :
    readItems options topic take state (argument :: rest)
      = readItems options topic take state' after := by
  rw [readItems]
  · split
    · rename_i herror
      rw [hitem] at herror
      cases herror
    · rename_i hok
      rw [hitem] at hok
      cases hok
      rw [hstate]
  · exact hne

end

/-! ## All of them -/

/-- Reads the arguments of a preview into a draft. -/
abbrev readDraft : RenderDraft → List String → Except Stop RenderDraft :=
  readItems RenderOption.all .render RenderDraft.take

/-- An option with its value attached is taken into the draft. -/
theorem readItems_attach {o : Opt RenderOption} (h : o ∈ RenderOption.all) {value : String}
    {d d' : RenderDraft} (htake : d.take (.option o.key ("--" ++ o.long) value) = .ok d')
    (rest : List String) : readDraft d (attach o.long value :: rest) = readDraft d' rest := by
  have hne : attach o.long value ≠ "--" := by
    intro heq
    have hlength := congrArg (·.toList.length) heq
    simp [attach, String.toList_append] at hlength
  exact readItems_cons hne (takeItem_attach h value rest) htake

theorem readItems_append (d : RenderDraft) (lines rest : List String) :
    readDraft d (lines.map (attach "append") ++ rest)
      = readDraft { d with lines := d.lines ++ lines } rest := by
  induction lines generalizing d with
  | nil => rw [List.append_nil]; rfl
  | cons line lines ih =>
    have hoption : (⟨.append, "append", some 'a', true⟩ : Opt RenderOption) ∈ RenderOption.all := by
      simp [RenderOption.all]
    rw [List.map_cons, List.cons_append, readItems_attach hoption rfl, ih]
    simp

/-- An option that may be left out sets its part of the draft. -/
theorem readItems_optional {o : Opt RenderOption} (h : o ∈ RenderOption.all) {d : RenderDraft}
    (set : Option String → RenderDraft) (hnone : set none = d)
    (htake : ∀ value, d.take (.option o.key ("--" ++ o.long) value) = .ok (set (some value)))
    (given : Option String) (rest : List String) :
    readDraft d (given.toList.map (attach o.long) ++ rest) = readDraft (set given) rest := by
  cases given with
  | none => rw [hnone]; rfl
  | some value => exact readItems_attach h (htake value) rest

/-- A path that is not empty is taken as it is. -/
theorem path_eq {value : String} (h : value ≠ "") (name : String) :
    path name value = .ok value := by
  have hempty : value.isEmpty = false := by simpa using h
  simp only [path, hempty]
  rfl

/-- Behind two dashes the snapshots are a value. -/
theorem readItems_snapshots {d : RenderDraft} (h : d.snapshots = none) {snapshots : String}
    (hne : snapshots ≠ "") :
    readDraft d ["--", snapshots] = .ok { d with snapshots := some snapshots } := by
  rw [readDraft, readItems]
  simp only [List.foldlM_cons, List.foldlM_nil, RenderDraft.take, h, path_eq hne]
  rfl

/-- A draft with nothing but a source. -/
def Source.draft : Source → RenderDraft
  | .template format => { template := some format }
  | .config path => { config := some path }

theorem readItems_source {source : Source} (h : source ≠ .config "") (rest : List String) :
    readDraft {} (source.argument :: rest) = readDraft source.draft rest := by
  cases source with
  | template format =>
    have hoption : (⟨.template, "template", some 't', true⟩ : Opt RenderOption) ∈
        RenderOption.all := by simp [RenderOption.all]
    exact readItems_attach hoption rfl rest
  | config file =>
    have hoption : (⟨.config, "config", some 'c', true⟩ : Opt RenderOption) ∈
        RenderOption.all := by simp [RenderOption.all]
    refine readItems_attach hoption ?_ rest
    have hfile : file ≠ "" := fun heq => h (by rw [heq])
    simp only [RenderDraft.take, path_eq hfile]
    rfl

/-- **Every preview can be asked for.** -/
theorem read_arguments {p : Preview} (h : p.Named) : read p.arguments = .ok (.render p) := by
  obtain ⟨source, placeholder, delimiter, lines, snapshots⟩ := p
  have hplaceholder : ∀ rest, readDraft source.draft
      (placeholder.toList.map (attach "placeholder") ++ rest)
        = readDraft { source.draft with placeholder } rest :=
    readItems_optional (o := ⟨.placeholder, "placeholder", none, true⟩)
      (by simp [RenderOption.all]) (fun placeholder => { source.draft with placeholder })
      (by cases source <;> rfl) (fun _ => by cases source <;> rfl) placeholder
  have hdelimiter : ∀ rest, readDraft { source.draft with placeholder }
      (delimiter.toList.map (attach "delimiter") ++ rest)
        = readDraft { source.draft with placeholder, delimiter } rest :=
    readItems_optional (o := ⟨.delimiter, "delimiter", none, true⟩)
      (by simp [RenderOption.all])
      (fun delimiter => { source.draft with placeholder, delimiter })
      (by cases source <;> rfl) (fun _ => by cases source <;> rfl) delimiter
  have hlines : source.draft.lines = [] := by cases source <;> rfl
  have hsnapshots : { source.draft with placeholder, delimiter, lines := source.draft.lines ++ lines
      }.snapshots = none := by cases source <;> rfl
  have hdraft : readDraft {} (Preview.arguments ⟨source, placeholder, delimiter, lines,
      snapshots⟩).tail = .ok { source.draft with placeholder, delimiter, lines, snapshots } := by
    refine (readItems_source h.config _).trans ?_
    refine (hplaceholder _).trans ?_
    refine (hdelimiter _).trans ?_
    refine (readItems_append _ _ _).trans ?_
    refine (readItems_snapshots hsnapshots h.snapshots).trans ?_
    rw [hlines, List.nil_append]
  show readRender _ = _
  refine bind_eq_ok_iff.mpr ⟨_, hdraft, ?_⟩
  cases source <;> rfl

end AccessLog.CommandLine
