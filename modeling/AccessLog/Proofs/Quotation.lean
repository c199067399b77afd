import AccessLog.Proofs.Canonical
import AccessLog.Proofs.Render.Denotation
import Mathlib.Data.List.SplitBy

/-!
# Text quoted for a format

A text becomes a format by doubling its percent signs, and **such a format writes the text and
nothing else** (`quoted_reproduced`), whatever the text looks like: one that reads like a field,
that ends in a percent sign or that holds nothing but percent signs.

The instructions of the format are no matter of chance either. They are the *strands* of the text:
its percent signs, one by one, and the runs between them, each as long as it can be. That a row of
strands is a normal program says the same about literal instructions, so what has been shown about
canonical texts does the compiling. All that is left is that the escape goes along a concatenation
(`escape_join`).
-/

set_option autoImplicit false

namespace AccessLog

namespace Text

/-- Whether two neighbours belong to one run: neither of them is a percent sign. -/
def inRun (a b : Char) : Bool := a != '%' && b != '%'

/-- A text cut into its percent signs and the runs between them, in order. -/
def strands (s : String) : List String := (s.toList.splitBy inRun).map String.ofList

/-- The parts of a text that are its strands. Runs are as long as they can be, since two of them
are never neighbours. -/
structure Strands (s : String) (parts : List String) : Prop where
  join_eq : String.join parts = s
  each : ∀ part ∈ parts, part = "%" ∨ part ≠ "" ∧ '%' ∉ part.toList
  apart : parts.IsChain fun a b => ¬ (a ≠ "%" ∧ b ≠ "%")

/-- A percent sign is in no run with anything else. -/
theorem eq_percent_of_mem {run : List Char} (h : run.IsChain fun a b => inRun a b)
    (hmem : '%' ∈ run) : run = ['%'] := by
  induction h with
  | nil => cases hmem
  | singleton c => rw [List.mem_singleton.mp hmem]
  | @cons_cons c d rest hcd _ ih =>
    simp only [inRun, Bool.and_eq_true, bne_iff_ne] at hcd
    rcases List.mem_cons.mp hmem with heq | hmem
    · exact absurd heq.symm hcd.1
    · have hrest := ih hmem
      simp only [List.cons.injEq] at hrest
      exact absurd hrest.1 hcd.2

/-- A run that is not a percent sign holds none. -/
theorem not_percent_of_mem_splitBy {cs run : List Char} (h : run ∈ cs.splitBy inRun)
    (hne : String.ofList run ≠ "%") : '%' ∉ run := by
  intro hmem
  apply hne
  rw [eq_percent_of_mem (List.isChain_of_mem_splitBy h) hmem]

/-- Cutting a text gives its strands. -/
theorem strands_spec (s : String) : Strands s (strands s) := by
  refine ⟨?_, ?_, ?_⟩
  · apply String.toList_inj.mp
    simp [strands, List.flatMap_map, List.flatMap_id']
  · intro part hpart
    obtain ⟨run, hrun, rfl⟩ := List.mem_map.mp hpart
    by_cases hsign : String.ofList run = "%"
    · exact .inl hsign
    · have hne := List.ne_nil_of_mem_splitBy hrun
      have hpercent := not_percent_of_mem_splitBy hrun hsign
      exact .inr (by simp [hne, hpercent])
  · rw [strands, List.isChain_map]
    refine (List.isChain_getLast_head_splitBy inRun s.toList).imp_of_mem_imp ?_
    intro x y hx hy hcut hboth
    obtain ⟨hne, hne', hcut⟩ := hcut
    -- the characters that meet would be none, and then nothing is cut between them
    have hlast : x.getLast hne ≠ '%' := by
      intro heq
      exact not_percent_of_mem_splitBy hx hboth.1 (heq ▸ List.getLast_mem hne)
    have hhead : y.head hne' ≠ '%' := by
      intro heq
      exact not_percent_of_mem_splitBy hy hboth.2 (heq ▸ List.head_mem hne')
    simp [inRun, hlast, hhead] at hcut

end Text

namespace Instruction

/-! ## The escape -/

theorem escape_append (a b : String) : escape (a ++ b) = escape a ++ escape b := by
  simp only [escape, String.toList_append, List.flatMap_append, String.ofList_append]

/-- The escape goes along a text part by part. -/
theorem escape_join (parts : List String) :
    escape (String.join parts) = String.join (parts.map escape) := by
  induction parts with
  | nil => rfl
  | cons part parts ih => simp only [String.join_cons, List.map_cons, escape_append, ih]

end Instruction

namespace Text

variable {s : String} {parts : List String}

/-- Strands are what literal instructions hold in a normal program. -/
theorem Strands.normal (h : Strands s parts) : Normal (parts.map Instruction.literal) := by
  refine ⟨?_, ?_⟩
  · intro i hi
    obtain ⟨part, hpart, rfl⟩ := List.mem_map.mp hi
    exact ⟨rfl, h.each part hpart⟩
  · rw [List.isChain_map]
    exact h.apart

theorem Strands.canonical_eq (h : Strands s parts) (template : String) :
    Program.canonical ⟨template, parts.map Instruction.literal⟩ = Instruction.escape s := by
  have htext : Instruction.text ∘ Instruction.literal = Instruction.escape := rfl
  rw [Program.canonical, List.map_map, htext, ← Instruction.escape_join, h.join_eq]

/-- A text with its percent signs doubled compiles to its strands. -/
theorem Strands.compile_escape (h : Strands s parts) :
    compile (Instruction.escape s)
      = .ok ⟨Instruction.escape s, parts.map Instruction.literal⟩ := by
  have hcompile := Compile.compile_canonical (p := ⟨"", _⟩) h.normal
  rwa [h.canonical_eq] at hcompile

/-- A text has one row of strands, since a format has one row of instructions. -/
theorem Strands.eq_strands (h : Strands s parts) : parts = strands s := by
  have hcompile := h.compile_escape
  rw [(strands_spec s).compile_escape, Except.ok.injEq, Program.mk.injEq] at hcompile
  have hinjective : Function.Injective Instruction.literal := by
    intro a b hab
    simpa [Instruction.literal] using hab
  exact (hinjective.list_map hcompile.2).symm

end Text

/-- **A quoted text is reproduced.** The text of a literal instruction is the literal with every
percent sign doubled. It compiles, to literals again: the strands of the text, of which there is
one row only. Without a delimiter they make up the text, for whatever provider and placeholder,
and with one they are written with the delimiter behind each. -/
theorem quoted_reproduced (s : String) :
    (Instruction.literal s).text.toList
        = s.toList.flatMap (fun c => if c = '%' then ['%', '%'] else [c]) ∧
      (∀ parts, Text.Strands s parts ↔ parts = Text.strands s) ∧
      ∃ p, compile (Instruction.literal s).text = .ok p ∧
        p.instructions = (Text.strands s).map Instruction.literal ∧
        ∀ (m : Type → Type) [Monad m] [LawfulMonad m] (provider : Provider m)
          (placeholder : String),
          p.render provider ⟨placeholder, ""⟩ = pure s ∧
          ∀ delimiter, p.render provider ⟨placeholder, delimiter⟩
            = pure (String.join ((Text.strands s).map (· ++ delimiter))) := by
  have hstrands := Text.strands_spec s
  refine ⟨?_, ?_, ?_⟩
  · exact String.toList_ofList
  · intro parts
    constructor
    · exact Text.Strands.eq_strands
    · rintro rfl
      exact hstrands
  · refine ⟨_, hstrands.compile_escape, rfl, ?_⟩
    intro m _ _ provider placeholder
    have hrender (delimiter : String) := Program.render_literals
      (p := ⟨Instruction.escape s, (Text.strands s).map Instruction.literal⟩) rfl provider
      ⟨placeholder, delimiter⟩
    refine ⟨?_, hrender⟩
    rw [hrender ""]
    simp [hstrands.join_eq]

/-- Percent signs in a row, at both ends and next to a wide character. -/
theorem quoted_reproduced_wide : ∃ p, compile (Instruction.literal "%é%%x%").text = .ok p ∧
    p.render (Provider.minimal "now" none none) ⟨"-", ""⟩ = "%é%%x%" ∧
    p.render (Provider.minimal "now" none none) ⟨"-", "|"⟩ = "%|é|%|%|x|%|" := by
  obtain ⟨-, -, p, hcompile, -, hrender⟩ := quoted_reproduced "%é%%x%"
  obtain ⟨hempty, hdelimited⟩ := hrender Id (Provider.minimal "now" none none) "-"
  have hstrands : String.join ((Text.strands "%é%%x%").map (· ++ "|")) = "%|é|%|%|x|%|" := by
    decide +kernel
  exact ⟨p, hcompile, hempty, (hdelimited "|").trans hstrands⟩

end AccessLog
