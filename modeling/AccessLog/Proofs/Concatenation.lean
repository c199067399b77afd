import AccessLog.Proofs.Compile.Failure
import AccessLog.Proofs.Normal
import AccessLog.Proofs.Render.Denotation

/-!
# Formats one after the other

Two formats that compile do so when they are written one after the other, and what the whole one
means is what the two mean, with one exception: **where the first ends in text and the second
begins with text, the two texts are one** (`Joined`). An escaped percent sign is no such text, so
nothing happens between `%%` and `%%`. The exception shows in a line only by a delimiter that is
missing between the two.

The argument is about pieces and not about a scan (`Grammar.Format.append`): two rows of pieces
are a row of pieces, unless runs of text meet, and then they are one when the two runs are made
one piece. Errors need no more than that, since the place at which a format breaks is behind a
format that compiles.
-/

set_option autoImplicit false

namespace AccessLog

/-- **How the instructions of two formats follow each other**: one list behind the other, or with
one text in place of two where text meets text. -/
inductive Joined : List Instruction → List Instruction → List Instruction → Prop where
  | apart {A B : List Instruction}
    (h : ∀ i ∈ A.getLast?, ∀ j ∈ B.head?, ¬ (i.IsRun ∧ j.IsRun)) : Joined A B (A ++ B)
  | run {A B : List Instruction} {x y : String} (hx : x ≠ "%") (hy : y ≠ "%") :
    Joined (A ++ [.literal x]) (.literal y :: B) (A ++ .literal (x ++ y) :: B)

theorem Instruction.Normal.exists_literal {i : Instruction} (h : i.Normal) (hi : i.IsRun) :
    ∃ x, i = .literal x ∧ x ≠ "%" := by
  obtain ⟨op, limit⟩ := i
  cases op with
  | text x =>
    obtain ⟨hlimit, -⟩ := h
    cases hlimit
    exact ⟨x, rfl, hi⟩
  | field query => exact hi.elim

namespace Grammar

/-! ## Rows of pieces -/

theorem Piece.eq_literal {p : List Char} {x : String} (h : Piece p (.literal x)) (hx : x ≠ "%") :
    IsRun p ∧ x = String.ofList p := by
  have hrun : IsRun p := h.isRun_iff.mpr hx
  -- the two other pieces begin with a percent sign
  generalize hi : Instruction.literal x = i at h
  cases h with
  | run _ =>
    cases hi
    exact ⟨hrun, rfl⟩
  | percent => exact absurd hrun (not_isRun_percent _)
  | field _ => exact absurd hrun (not_isRun_percent _)

theorem exists_head?_instruction {pieces : List (List Char)} {instructions : List Instruction}
    (h : List.Forall₂ Piece pieces instructions) :
    ∀ p ∈ pieces.head?, ∃ i ∈ instructions.head?, Piece p i := by
  intro p hp
  cases h with
  | nil => cases hp
  | cons hpiece _ =>
    cases hp
    exact ⟨_, rfl, hpiece⟩

theorem exists_getLast?_instruction {pieces : List (List Char)} {instructions : List Instruction}
    (h : List.Forall₂ Piece pieces instructions) :
    ∀ p ∈ pieces.getLast?, ∃ i ∈ instructions.getLast?, Piece p i := by
  rw [List.getLast?_eq_head?_reverse, List.getLast?_eq_head?_reverse]
  exact exists_head?_instruction (List.rel_reverse h)

theorem Format.append_apart {a b : List Char} {A B : List Instruction} (ha : Format a A)
    (hb : Format b B) (hapart : ∀ i ∈ A.getLast?, ∀ j ∈ B.head?, ¬ (i.IsRun ∧ j.IsRun)) :
    Format (a ++ b) (A ++ B) := by
  obtain ⟨as, rfl, has, hchain⟩ := ha
  obtain ⟨bs, rfl, hbs, hchain'⟩ := hb
  refine ⟨as ++ bs, List.flatten_append, List.rel_append has hbs, hchain.append hchain' ?_⟩
  intro p hp q hq hboth
  obtain ⟨i, hi, hpiece⟩ := exists_getLast?_instruction has p hp
  obtain ⟨j, hj, hpiece'⟩ := exists_head?_instruction hbs q hq
  exact hapart i hi j hj ⟨hpiece.isRun_iff.mp hboth.1, hpiece'.isRun_iff.mp hboth.2⟩

/-- A run is as good as another as long as only what stands before it is looked at. -/
theorem isChain_append_run {pieces : List (List Char)} {run run' : List Char} (hrun : IsRun run)
    (h : (pieces ++ [run]).IsChain Apart) : (pieces ++ [run']).IsChain Apart := by
  rw [List.isChain_append] at h ⊢
  refine ⟨h.1, .singleton run', ?_⟩
  intro p hp _ _ hboth
  exact h.2.2 p hp run rfl ⟨hboth.1, hrun⟩

theorem isChain_run_cons {pieces : List (List Char)} {run run' : List Char} (hrun : IsRun run)
    (h : (run :: pieces).IsChain Apart) : (run' :: pieces).IsChain Apart := by
  rw [List.isChain_cons] at h ⊢
  exact ⟨fun p hp hboth => h.1 p hp ⟨hrun, hboth.2⟩, h.2⟩

theorem Format.exists_last_run {a : List Char} {A : List Instruction} {x : String} (hx : x ≠ "%")
    (h : Format a (A ++ [.literal x])) :
    ∃ pieces run, a = pieces.flatten ++ run ∧ List.Forall₂ Piece pieces A ∧ IsRun run ∧
      x = String.ofList run ∧ (pieces ++ [run]).IsChain Apart := by
  obtain ⟨pieces, rfl, hpieces, hchain⟩ := h
  have hfront := List.forall₂_take_append _ _ _ hpieces
  have hlast := List.forall₂_drop_append _ _ _ hpieces
  rw [← List.take_append_drop A.length pieces] at hchain ⊢
  generalize pieces.take A.length = front at *
  generalize pieces.drop A.length = last at *
  cases hlast with
  | cons hpiece hnil =>
    cases hnil
    obtain ⟨hrun, hx'⟩ := hpiece.eq_literal hx
    exact ⟨front, _, by simp, hfront, hrun, hx', hchain⟩

theorem Format.append_run {a b : List Char} {A B : List Instruction} {x y : String}
    (hx : x ≠ "%") (hy : y ≠ "%") (ha : Format a (A ++ [.literal x]))
    (hb : Format b (.literal y :: B)) : Format (a ++ b) (A ++ .literal (x ++ y) :: B) := by
  obtain ⟨as, run, rfl, has, hrun, rfl, hchain⟩ := ha.exists_last_run hx
  obtain ⟨bs, rfl, hbs, hchain'⟩ := hb
  cases hbs with
  | @cons run' _ bs _ hpiece hbs =>
    obtain ⟨hrun', rfl⟩ := hpiece.eq_literal hy
    -- the two runs are one, and what stands around it is as far apart from it as from them
    have hboth : IsRun (run ++ run') := by
      refine ⟨List.append_ne_nil_of_left_ne_nil hrun.1 run', ?_⟩
      rw [List.mem_append, not_or]
      exact ⟨hrun.2, hrun'.2⟩
    refine ⟨as ++ (run ++ run') :: bs, by simp, ?_, ?_⟩
    · rw [← String.ofList_append]
      exact List.rel_append has (.cons (.run hboth) hbs)
    · rw [List.isChain_split]
      exact ⟨isChain_append_run hrun hchain, isChain_run_cons hrun' hchain'⟩

/-- **Formats one after the other are a format**, with the instructions of the two, joined. -/
theorem Format.append {a b : List Char} {A B : List Instruction} (ha : Format a A)
    (hb : Format b B) : ∃ C, Format (a ++ b) C ∧ Joined A B C := by
  by_cases hmeet : ∃ i ∈ A.getLast?, ∃ j ∈ B.head?, i.IsRun ∧ j.IsRun
  · obtain ⟨i, hi, j, hj, hrun, hrun'⟩ := hmeet
    obtain ⟨A, rfl⟩ := List.getLast?_eq_some_iff.mp hi
    obtain ⟨B, rfl⟩ := List.head?_eq_some_iff.mp hj
    obtain ⟨x, rfl, hx⟩ := (ha.normal.each i (by simp)).exists_literal hrun
    obtain ⟨y, rfl, hy⟩ := (hb.normal.each j (by simp)).exists_literal hrun'
    exact ⟨_, ha.append_run hx hy hb, .run hx hy⟩
  · have hapart : ∀ i ∈ A.getLast?, ∀ j ∈ B.head?, ¬ (i.IsRun ∧ j.IsRun) :=
      fun i hi j hj hboth => hmeet ⟨i, hi, j, hj, hboth⟩
    exact ⟨_, ha.append_apart hb hapart, .apart hapart⟩

end Grammar

/-! ## Compiling and rendering -/

namespace Compile

theorem compile_append_ok {a b : String} {p q : Program} (hp : compile a = .ok p)
    (hq : compile b = .ok q) :
    ∃ r, compile (a ++ b) = .ok r ∧ Joined p.instructions q.instructions r.instructions := by
  have ha := (compile_eq_ok_iff_format.mp hp).2
  have hb := (compile_eq_ok_iff_format.mp hq).2
  obtain ⟨C, hC, hjoined⟩ := ha.append hb
  rw [← String.toList_append] at hC
  exact ⟨⟨a ++ b, C⟩, compile_eq_ok_iff_format.mpr ⟨rfl, hC⟩, hjoined⟩

/-- Behind a format that compiles, an error is the same error further on. -/
theorem compile_append_error {a b : String} {e : CompileError} (ha : ∃ p, compile a = .ok p)
    (hb : compile b = .error e) :
    compile (a ++ b) = .error ⟨e.cause, a.utf8ByteSize + e.position⟩ := by
  obtain ⟨before, after, rfl, ⟨q, hq⟩, hbreaks, hplace⟩ := exists_breaks hb
  obtain ⟨p, hp⟩ := ha
  obtain ⟨r, hr, -⟩ := compile_append_ok hp hq
  have hshape : a ++ (before ++ "%" ++ after) = a ++ before ++ "%" ++ after := by
    simp only [String.append_assoc]
  rw [hshape, compile_of_breaks ⟨r, hr⟩ hbreaks, String.utf8ByteSize_append, hplace]

/-- An error that a percent sign closes is not undone by what follows. -/
theorem compile_error_append {a : String} {e : CompileError} (h : compile a = .error e)
    (hcause : e.cause ≠ .unterminated) (b : String) : compile (a ++ b) = .error e := by
  obtain ⟨before, after, rfl, hbefore, hbreaks, hplace⟩ := exists_breaks h
  obtain ⟨body, rest, rfl, -, hclosed⟩ := hbreaks.exists_closed hcause
  have hshape : before ++ "%" ++ (body ++ "%" ++ rest) ++ b
      = before ++ "%" ++ (body ++ "%" ++ (rest ++ b)) := by
    simp only [String.append_assoc]
  rw [hshape, compile_of_breaks hbefore (hclosed (rest ++ b)), hplace]

end Compile

namespace Program

variable {m : Type → Type} [Monad m] [LawfulMonad m]

/-- What is written for joined instructions, when no delimiter shows whether they are joined. -/
theorem render_joined {p q r : Program}
    (h : Joined p.instructions q.instructions r.instructions) (provider : Provider m)
    (style : Style)
    (hstyle : style.delimiter = "" ∨ r.instructions = p.instructions ++ q.instructions) :
    r.render provider style = do
      let first ← p.render provider style
      let second ← q.render provider style
      return first ++ second := by
  by_cases happend : r.instructions = p.instructions ++ q.instructions
  · exact render_append happend provider style
  have hdelimiter : style.delimiter = "" := hstyle.resolve_right happend
  clear hstyle
  generalize hP : p.instructions = P at *
  generalize hQ : q.instructions = Q at *
  generalize hR : r.instructions = R at *
  cases h with
  | apart _ => exact absurd rfl happend
  | @run A B x y _ _ =>
    -- all three as what stands before the text, the text, and what stands behind it
    let front : Program := ⟨"", A⟩
    let back : Program := ⟨"", B⟩
    let text (s : String) : Program := ⟨"", [.literal s]⟩
    have hp := render_append (p := front) (q := text x) hP provider style
    have hq := render_append (p := text y) (q := back) hQ provider style
    have hr := render_append (p := front) (q := ⟨"", .literal (x ++ y) :: B⟩) hR provider style
    have hrest := render_append (p := text (x ++ y)) (q := back)
      (r := ⟨"", .literal (x ++ y) :: B⟩) rfl provider style
    have htext (s : String) : (text s).render provider style = pure (s ++ style.delimiter) :=
      render_literal rfl provider style
    rw [hr, hrest, hp, hq, htext, htext, htext, hdelimiter]
    simp [String.append_assoc]

end Program

/-- **Compiling and rendering go along the parts of a format.** Two formats that compile do so
one after the other, their instructions are joined, and so is what they write, with any delimiter
if no two texts became one and else with none. An error of the second is found at its place behind
the first; an error of the first, but for a percent sign without a partner, stays what it is. -/
theorem compile_append (a b : String) :
    (∀ p q, compile a = .ok p → compile b = .ok q →
      ∃ r, compile (a ++ b) = .ok r ∧ Joined p.instructions q.instructions r.instructions ∧
        ∀ (m : Type → Type) [Monad m] [LawfulMonad m] (provider : Provider m) (style : Style),
          style.delimiter = "" ∨ r.instructions = p.instructions ++ q.instructions →
          r.render provider style = do
            let first ← p.render provider style
            let second ← q.render provider style
            return first ++ second) ∧
    (∀ p e, compile a = .ok p → compile b = .error e →
      compile (a ++ b) = .error ⟨e.cause, a.utf8ByteSize + e.position⟩) ∧
    (∀ e, compile a = .error e → e.cause ≠ .unterminated → compile (a ++ b) = .error e) := by
  refine ⟨?_, ?_, ?_⟩
  · intro p q hp hq
    obtain ⟨r, hr, hjoined⟩ := Compile.compile_append_ok hp hq
    exact ⟨r, hr, hjoined, fun _ _ _ => Program.render_joined hjoined⟩
  · intro p e hp he
    exact Compile.compile_append_error ⟨p, hp⟩ he
  · intro e he hcause
    exact Compile.compile_error_append he hcause b

/-- Text meets text behind a wide character; a wrong name is found behind that character, and
stays wrong in front of a percent sign that has no partner. -/
theorem compile_append_wide :
    (∃ p q r, compile "%URI(host)% é" = .ok p ∧ compile "x%DURATION%" = .ok q ∧
      compile ("%URI(host)% é" ++ "x%DURATION%") = .ok r ∧
      Joined p.instructions q.instructions r.instructions ∧
      ∀ provider : Provider Id, (r.render provider {}).run
        = (p.render provider {}).run ++ (q.render provider {}).run) ∧
    compile ("%URI(host)% é" ++ "%%%NOPE%") = .error ⟨.unknownField "NOPE", 14 + 2⟩ ∧
    compile ("%NOPE%" ++ "%") = .error ⟨.unknownField "NOPE", 0⟩ := by
  have hp : compile "%URI(host)% é" = .ok ⟨_,
      [⟨.field (.uri ⟨.wellKnown .host, none⟩), none⟩, .literal " é"]⟩ := rfl
  have hq : compile "x%DURATION%" = .ok ⟨_, [.literal "x", ⟨.field (.int .duration), none⟩]⟩ := rfl
  obtain ⟨r, hr, hjoined, hrender⟩ := (compile_append _ _).1 _ _ hp hq
  refine ⟨⟨_, _, r, hp, hq, hr, hjoined, fun provider => ?_⟩, ?_, ?_⟩
  · exact hrender Id provider {} (.inl rfl)
  · exact (compile_append _ "%%%NOPE%").2.1 _ ⟨.unknownField "NOPE", 2⟩ hp rfl
  · exact (compile_append "%NOPE%" "%").2.2 _ rfl (by decide)

end AccessLog
