import AccessLog.CommandLine.Run
import AccessLog.Proofs.Text.Parts

/-!
# What is reported of a failure

A report names the task that failed and, below it, the causes of the failure: a single one as it is,
and more than one with numbers. A cause of several lines is indented as a whole. That is said here
of the text and not of the function that writes it (`Failure.Told`); **what is written is such a
report** for every failure with one cause or two, which is what all failures of the program have.
For settings these are what could not be done and why (`SettingsError.Explains`).

A line without a text ends the program in the middle of its work. What it leaves on the way is not
settled here, but it does not go without a word.
-/

set_option autoImplicit false

namespace AccessLog

/-! ## Causes -/

namespace SettingsError

/-- What could not be done with its reason, and below that the reason alone. -/
def because (what reason : String) : List String := [what ++ ": " ++ reason, reason]

/-- The causes of an error in settings. A file with another extension is not looked into, so there
is nothing below that. -/
inductive Explains : SettingsError → List String → Prop where
  | unreadable (path : String) (reason : ReadFailure) : Explains (.unreadable path reason)
      (because ("could not read access log config " ++ path) reason.message)
  | yaml : Explains .yaml (because "invalid YAML access log config" "malformed document")
  | malformed : Explains .malformed (because "invalid JSON access log config" "malformed document")
  | mismatch (m : Json.Mismatch) (place : Text.Place) : Explains (.mismatch m place)
      (because "invalid JSON access log config" (m.message ++ " at " ++ place.words))
  | unsupported (path : String) :
    Explains (.unsupported path) ["unsupported access log config format: " ++ path]
  | compile (error : CompileError) :
    Explains (.compile error) (because "invalid access log format" error.message)

/-- An error is shown with its causes, and with no others. -/
theorem explains_iff {e : SettingsError} {causes : List String} :
    e.Explains causes ↔ e.causes = causes := by
  constructor
  · intro h
    cases h <;> rfl
  · rintro rfl
    cases e with
    | unreadable path reason => exact .unreadable path reason
    | yaml => exact .yaml
    | malformed => exact .malformed
    | mismatch m place => exact .mismatch m place
    | unsupported path => exact .unsupported path
    | compile error => exact .compile error

end SettingsError

namespace CommandLine

/-! ## Reports -/

/-- Lines, and the same lines with an indent in front of all but the first. -/
inductive Hangs (indent : String) : String → String → Prop where
  | lines {lines : List String} (hne : lines ≠ []) (h : ∀ line ∈ lines, '\n' ∉ line.toList) :
    Hangs indent ("\n".intercalate lines) (("\n" ++ indent).intercalate lines)

/-- What is told of a failure. -/
inductive Failure.Told : Failure → String → Prop where
  | one {task cause shown : String} (h : Hangs "    " cause shown) :
    Told (.reported task [cause]) ("Error: " ++ task ++ "\n\nCaused by:\n    " ++ shown ++ "\n")
  | two {task cause deeper shown shownDeeper : String} (h : Hangs "       " cause shown)
    (hdeeper : Hangs "       " deeper shownDeeper) :
    Told (.reported task [cause, deeper]) ("Error: " ++ task ++ "\n\nCaused by:\n    0: " ++ shown
      ++ "\n    1: " ++ shownDeeper ++ "\n")
  | aborted {text : String} (h : text ≠ "") : Told .unwritable text

variable {indent : String}

theorem hang_append (a b : String) : hang indent (a ++ b) = hang indent a ++ hang indent b := by
  simp [hang, List.flatMap_append]

theorem hang_line {line : String} (h : '\n' ∉ line.toList) : hang indent line = line := by
  have hline : ∀ cs : List Char, '\n' ∉ cs →
      cs.flatMap (fun c => if c = '\n' then '\n' :: indent.toList else [c]) = cs := by
    intro cs hcs
    induction cs with
    | nil => rfl
    | cons c cs ih =>
      obtain ⟨hc, hrest⟩ := not_or.mp (mt List.mem_cons.mpr hcs)
      rw [List.flatMap_cons, ih hrest, if_neg (Ne.symm hc), List.singleton_append]
  rw [hang, hline _ h, String.ofList_toList]

theorem hang_lineFeed : hang indent "\n" = "\n" ++ indent := by
  rw [← String.toList_inj]
  simp [hang]

/-- **Every line but the first one is indented.** -/
theorem hangs_hang (cause : String) : Hangs indent cause (hang indent cause) := by
  have hsep : "\n".toList = ['\n'] := rfl
  obtain ⟨lines, hne, hlines, rfl⟩ := Text.exists_intercalate hsep cause
  have heq : hang indent ("\n".intercalate lines) = ("\n" ++ indent).intercalate lines := by
    clear hne
    induction lines with
    | nil => rfl
    | cons line lines ih =>
      obtain ⟨hline, hmore⟩ := List.forall_mem_cons.mp hlines
      cases lines with
      | nil => rw [String.intercalate_singleton, String.intercalate_singleton, hang_line hline]
      | cons next lines =>
        rw [String.intercalate_cons_cons, String.intercalate_cons_cons, hang_append, hang_append,
          hang_line hline, hang_lineFeed, ih hmore]
  rw [heq]
  exact .lines hne hlines

/-- A failure that has a cause, and not more than two. -/
inductive Failure.Explained : Failure → Prop where
  | one (task cause : String) : Explained (.reported task [cause])
  | two (task cause deeper : String) : Explained (.reported task [cause, deeper])
  | aborted : Explained .unwritable

theorem explained_causes (task : String) {e : SettingsError} {causes : List String}
    (h : e.Explains causes) : (Failure.reported task causes).Explained := by
  cases h with
  | unsupported path => exact .one task _
  | unreadable | yaml | malformed | mismatch | compile => exact .two task _ _

/-- **What is written of a failure tells it.** -/
theorem Failure.told_outcome {failure : Failure} (h : failure.Explained) :
    failure.Told failure.outcome.errors := by
  cases h with
  | one task cause => exact .one (hangs_hang cause)
  | two task cause deeper =>
    have hreport : report task [cause, deeper] = "Error: " ++ task ++ "\n\nCaused by:\n    0: "
        ++ hang "       " cause ++ "\n    1: " ++ hang "       " deeper ++ "\n" := by
      have hfirst : Text.padLeft 5 ' ' (Text.decimal 0) = "    0" := by decide
      have hsecond : Text.padLeft 5 ' ' (Text.decimal 1) = "    1" := by decide
      simp only [report, List.mapIdx_cons, List.mapIdx_nil, String.join_cons, String.join_nil,
        hfirst, hsecond]
      rw [← String.toList_inj]
      simp
    show Failure.Told _ (report task [cause, deeper])
    rw [hreport]
    exact .two (hangs_hang cause) (hangs_hang deeper)
  | aborted => exact .aborted (by decide)

end CommandLine

end AccessLog
