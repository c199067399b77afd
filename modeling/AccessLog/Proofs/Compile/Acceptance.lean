import AccessLog.Proofs.Compile.Field

/-!
# What compiles

The compiler and the grammar agree: **a format compiles to a list of instructions exactly when the
grammar says that it means them** (`compile_iff_format`). Both directions go along the pieces of
the format.

- From the compiler to the grammar the induction is on the cuts of the format. Each cut gives one
  piece, and two runs of text cannot meet because a run goes on to the next percent sign.
- From the grammar to the compiler it is on the pieces. Here the scan has to find the very pieces
  that the grammar chose, which it does because a piece ends where the scan looks for its end.

The offset at which a scan starts is only ever shown in an error, so the statements hold for every
offset.
-/

set_option autoImplicit false

namespace AccessLog

namespace Compile

open Grammar

theorem bodyOf_of_ne_nil {body : List Char} (h : body ≠ []) : bodyOf body = fieldOf body := by
  have hempty : body.isEmpty = false := List.isEmpty_eq_false_iff.mpr h
  rw [bodyOf, hempty]
  rfl

/-- What stands between two percent signs is judged as the piece that it makes with them. -/
theorem bodyOf_eq_ok_iff {body : List Char} {i : Instruction} (hbody : '%' ∉ body) :
    bodyOf body = .ok i ↔ Piece ('%' :: (body ++ ['%'])) i := by
  constructor
  · intro h
    cases body with
    | nil =>
      cases h
      exact .percent
    | cons c body => exact .field ((fieldOf_eq_ok_iff hbody).mp h)
  · intro h
    generalize hp : '%' :: (body ++ ['%']) = p at h
    cases h with
    | run hrun => exact absurd (hp ▸ hrun) (not_isRun_percent _)
    | percent =>
      have hnil : body = [] := by simpa using hp
      subst hnil
      rfl
    | @field body' i hfield =>
      have heq : body = body' := by simpa using hp
      subst heq
      have hne : body ≠ [] := by
        rintro rfl
        exact not_field_nil hfield
      rw [bodyOf_of_ne_nil hne]
      exact (fieldOf_eq_ok_iff hbody).mpr hfield

/-! ## Runs of text end where the grammar says -/

/-- After a run of text comes no other, so what comes ends the run. -/
theorem endsRun_flatten {pieces : List (List Char)} {instructions : List Instruction}
    (hpieces : List.Forall₂ Piece pieces instructions) (hfirst : ∀ p ∈ pieces.head?, ¬ IsRun p) :
    EndsRun pieces.flatten := by
  cases hpieces with
  | nil => exact .inl rfl
  | @cons p i pieces instructions hpiece hpieces =>
    rcases hpiece.begins with hrun | ⟨after, rfl⟩
    · exact absurd hrun (hfirst p rfl)
    · exact .inr ⟨after ++ pieces.flatten, rfl⟩

/-- And what ends a run of text does not begin with another. -/
theorem not_isRun_of_endsRun {pieces : List (List Char)} (hends : EndsRun pieces.flatten) :
    ∀ p ∈ pieces.head?, ¬ IsRun p := by
  intro p hp hrun
  cases pieces with
  | nil => cases hp
  | cons q pieces =>
    cases hp
    obtain ⟨c, cs, rfl⟩ := List.exists_cons_of_ne_nil hrun.1
    rcases hends with hnil | ⟨after, heq⟩
    · simp at hnil
    · rw [List.flatten_cons, List.cons_append, List.cons.injEq] at heq
      exact hrun.2 (by simp [heq.1])

/-! ## The two directions -/

/-- The instructions of a scan are what the format means. -/
theorem format_of_scan {cs : List Char} : ∀ {start : Nat} {instructions : List Instruction},
    scan start cs = .ok instructions → Format cs instructions := by
  induction cut cs with
  | done =>
    intro start instructions h
    cases h
    exact ⟨[], rfl, .nil, .nil⟩
  | @run run rest hne hrun hrest _ ih =>
    intro start instructions h
    rw [scan_run start hrun hrest] at h
    obtain ⟨more, hmore, rfl⟩ := map_eq_ok_iff.mp h
    obtain ⟨pieces, rfl, hpieces, hchain⟩ := ih hmore
    rw [textOf_of_ne_nil hne]
    refine ⟨run :: pieces, rfl, .cons (.run ⟨hne, hrun⟩) hpieces, ?_⟩
    rw [List.isChain_cons]
    exact ⟨fun p hp hboth => not_isRun_of_endsRun hrest p hp hboth.2, hchain⟩
  | unterminated hbody =>
    intro start instructions h
    rw [scan_unterminated start hbody] at h
    cases h
  | @field body rest hbody _ ih =>
    intro start instructions h
    rw [scan_field start hbody] at h
    obtain ⟨i, hi, h⟩ := bind_eq_ok_iff.mp h
    obtain ⟨more, hmore, h⟩ := bind_eq_ok_iff.mp h
    rw [pure_eq_ok_iff] at h
    subst h
    obtain ⟨pieces, rfl, hpieces, hchain⟩ := ih hmore
    have hpiece := (bodyOf_eq_ok_iff hbody).mp (mapError_eq_ok_iff.mp hi)
    refine ⟨('%' :: (body ++ ['%'])) :: pieces, by simp, .cons hpiece hpieces, ?_⟩
    rw [List.isChain_cons]
    exact ⟨fun p _ hboth => not_isRun_percent _ hboth.1, hchain⟩

/-- The scan finds the pieces of a format, wherever it starts. -/
theorem scan_of_pieces {pieces : List (List Char)} {instructions : List Instruction}
    (hpieces : List.Forall₂ Piece pieces instructions) :
    ∀ start : Nat, pieces.IsChain Apart → scan start pieces.flatten = .ok instructions := by
  induction hpieces with
  | nil =>
    intro start _
    exact scan_nil start
  | @cons p i pieces instructions hpiece hpieces ih =>
    intro start hchain
    rw [List.isChain_cons] at hchain
    obtain ⟨hnext, hchain⟩ := hchain
    rw [List.flatten_cons]
    -- a piece that stands between percent signs is found by the two of them
    have hbetween : ∀ body, '%' ∉ body → p = '%' :: (body ++ ['%']) →
        scan start (p ++ pieces.flatten) = .ok (i :: instructions) := by
      rintro body hbody rfl
      have hshape : '%' :: (body ++ ['%']) ++ pieces.flatten
          = '%' :: (body ++ '%' :: pieces.flatten) := by simp
      rw [hshape, scan_field start hbody, (bodyOf_eq_ok_iff hbody).mpr hpiece]
      exact bind_eq_ok_iff.mpr ⟨i, rfl, bind_eq_ok_iff.mpr ⟨instructions, ih _ hchain, rfl⟩⟩
    cases hpiece with
    | run hrun =>
      have hfirst : ∀ q ∈ pieces.head?, ¬ IsRun q := fun q hq hq' => hnext q hq ⟨hrun, hq'⟩
      rw [scan_run start hrun.2 (endsRun_flatten hpieces hfirst)]
      refine map_eq_ok_iff.mpr ⟨instructions, ih _ hchain, ?_⟩
      simp [textOf, hrun.1]
    | percent => exact hbetween [] List.not_mem_nil rfl
    | field hfield => exact hbetween _ hfield.no_percent rfl

theorem scan_eq_ok_iff {start : Nat} {cs : List Char} {instructions : List Instruction} :
    scan start cs = .ok instructions ↔ Format cs instructions := by
  constructor
  · exact format_of_scan
  · rintro ⟨pieces, rfl, hpieces, hchain⟩
    exact scan_of_pieces hpieces start hchain

/-- A program is what its template means. -/
theorem compile_eq_ok_iff_format {t : String} {p : Program} :
    compile t = .ok p ↔ p.template = t ∧ Format t.toList p.instructions := by
  rw [compile_eq_ok_iff, scan_eq_ok_iff]

end Compile

/-- **The compiler accepts exactly the grammar, with exactly its meaning.** -/
theorem compile_iff_format (t : String) (instructions : List Instruction) :
    (∃ p, compile t = .ok p ∧ p.template = t ∧ p.instructions = instructions) ↔
      Grammar.Format t.toList instructions := by
  constructor
  · rintro ⟨p, hp, -, rfl⟩
    exact (Compile.compile_eq_ok_iff_format.mp hp).2
  · intro h
    exact ⟨⟨t, instructions⟩, Compile.compile_eq_ok_iff_format.mpr ⟨rfl, h⟩, rfl, rfl⟩

end AccessLog
