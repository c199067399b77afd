import AccessLog.Compile
import AccessLog.Proofs.Outcome

/-!
# The cuts of a format

`compile` splits a whole format at its percent signs first and works through the parts afterwards,
so its text says nothing about *the rest of a format*: the parts have no rest. This file gives
the other reading of the same function. `scan` compiles a list of characters from a byte offset
on, and its four equations say what it does with the front of the list and hand over the rest:

- nothing is left;
- a run of text, which goes on to the next percent sign (`scan_run`);
- a percent sign without a partner (`scan_unterminated`);
- a percent sign, a body and the next percent sign (`scan_field`).

**Every list of characters has exactly one of these shapes** (`Cut`), and the rest of it again, so
a proof about all formats is an induction over the cuts of one (`cut`), with a case for each
equation.
-/

set_option autoImplicit false

namespace AccessLog

namespace Compile

/-- Compiles a list of characters that starts at a byte offset of a format. -/
def scan (start : Nat) (cs : List Char) : Except CompileError (List Instruction) :=
  assemble start (cs.splitOn '%')

/-- A run of text ends at the end of the format or at a percent sign. -/
def EndsRun (rest : List Char) : Prop := rest = [] ∨ ∃ after, rest = '%' :: after

/-- How a format is cut, from the front. -/
inductive Cut : List Char → Prop where
  | done : Cut []
  | run {run rest : List Char} (hne : run ≠ []) (hrun : '%' ∉ run) (hrest : EndsRun rest)
    (more : Cut rest) : Cut (run ++ rest)
  | unterminated {body : List Char} (hbody : '%' ∉ body) : Cut ('%' :: body)
  | field {body rest : List Char} (hbody : '%' ∉ body) (more : Cut rest) :
    Cut ('%' :: (body ++ '%' :: rest))

/-- What starts with a percent sign is cut at the next one. -/
theorem cut_percent {after : List Char}
    (ih : ∀ rest : List Char, rest.length < after.length → Cut rest) : Cut ('%' :: after) := by
  by_cases hclose : '%' ∈ after
  · obtain ⟨body, rest, rfl, hbody⟩ := List.eq_append_cons_of_mem hclose
    refine .field hbody (ih rest ?_)
    simp only [List.length_append, List.length_cons]
    omega
  · exact .unterminated hclose

/-- Every format can be cut. The induction is on the length, since a body is skipped whole. -/
theorem cut (cs : List Char) : Cut cs := by
  induction hn : cs.length using Nat.strongRecOn generalizing cs with
  | ind n ih =>
    have hshorter : ∀ rest : List Char, rest.length < n → Cut rest := by
      intro rest hrest
      exact ih _ hrest rest rfl
    by_cases hopen : '%' ∈ cs
    · obtain ⟨run, after, rfl, hrun⟩ := List.eq_append_cons_of_mem hopen
      have hcut : Cut ('%' :: after) := by
        apply cut_percent
        intro rest hrest
        apply hshorter
        simp only [List.length_append, List.length_cons] at hn
        omega
      cases run with
      | nil => exact hcut
      | cons c run => exact .run (by simp) hrun (.inr ⟨after, rfl⟩) hcut
    · cases cs with
      | nil => exact .done
      | cons c cs =>
        have hwhole := Cut.run (by simp) hopen (.inl rfl) .done
        rwa [List.append_nil] at hwhole

/-! ## The equations of a scan -/

theorem textOf_of_ne_nil {run : List Char} (hrun : run ≠ []) :
    textOf run = [.literal (String.ofList run)] := by
  cases run with
  | nil => exact absurd rfl hrun
  | cons c run => rfl

/-- A body has a percent sign on either side, of one byte each. -/
theorem byteSize_field (body rest : List Char) :
    Text.byteSize ('%' :: (body ++ '%' :: rest)) = Text.byteSize body + 2 + Text.byteSize rest := by
  have hpercent : '%'.utf8Size = 1 := by decide
  simp only [Text.byteSize_cons, Text.byteSize_append, hpercent]
  omega

/-- Compiling a format is scanning it from its first byte. -/
theorem compile_eq_ok_iff {t : String} {p : Program} :
    compile t = .ok p ↔ p.template = t ∧ scan 0 t.toList = .ok p.instructions := by
  unfold compile scan
  rw [bind_eq_ok_iff]
  constructor
  · rintro ⟨instructions, hscan, hp⟩
    rw [pure_eq_ok_iff] at hp
    subst hp
    exact ⟨rfl, hscan⟩
  · rintro ⟨rfl, hscan⟩
    exact ⟨p.instructions, hscan, rfl⟩

/-- Text before a percent sign is a part of its own, even when it is empty. -/
theorem splitOn_percent (after : List Char) :
    ('%' :: after).splitOn '%' = [] :: after.splitOn '%' := by
  rw [List.splitOn_cons_eq_if_modifyHead]
  rfl

theorem scan_nil (start : Nat) : scan start [] = .ok [] := rfl

/-- A run of text becomes one instruction, and the scan goes on behind it. -/
theorem scan_run {run rest : List Char} (start : Nat) (hrun : '%' ∉ run) (hrest : EndsRun rest) :
    scan start (run ++ rest)
      = (textOf run ++ ·) <$> scan (start + Text.byteSize run) rest := by
  unfold scan
  rcases hrest with rfl | ⟨after, rfl⟩
  · rw [List.append_nil, List.splitOn_eq_singleton hrun]
    simp [assemble, textOf, Functor.map, Except.map]
  · rw [List.splitOn_append_cons_self_of_not_mem hrun after, splitOn_percent]
    cases hparts : after.splitOn '%' with
    | nil => exact absurd hparts (List.splitOn_ne_nil '%' after)
    | cons body more =>
      cases more with
      | nil => rfl
      | cons next more =>
        simp only [assemble, Text.byteSize_nil, Nat.add_zero]
        cases bodyOf body with
        | error cause => rfl
        | ok field =>
          cases assemble (start + Text.byteSize run + Text.byteSize body + 2) (next :: more) with
          | error e => rfl
          | ok instructions => rfl

/-- A percent sign without a partner is an error, at its own offset. -/
theorem scan_unterminated {body : List Char} (start : Nat) (hbody : '%' ∉ body) :
    scan start ('%' :: body) = .error ⟨.unterminated, start⟩ := by
  unfold scan
  rw [splitOn_percent, List.splitOn_eq_singleton hbody]
  rfl

/-- What stands between two percent signs is judged on its own; only the offset of the first
percent sign is added to what is wrong with it. -/
theorem scan_field {body rest : List Char} (start : Nat) (hbody : '%' ∉ body) :
    scan start ('%' :: (body ++ '%' :: rest)) = (do
      let field ← (bodyOf body).mapError (⟨·, start⟩)
      let more ← scan (start + Text.byteSize body + 2) rest
      return field :: more) := by
  unfold scan
  rw [splitOn_percent, List.splitOn_append_cons_self_of_not_mem hbody rest]
  cases hparts : rest.splitOn '%' with
  | nil => exact absurd hparts (List.splitOn_ne_nil '%' rest)
  | cons next more => rfl

end Compile

end AccessLog
