import AccessLog.Text.Basic

/-!
# Texts that are put together from parts

Cutting a text at each place where a character stands and putting parts together with that character
between them undo each other, **as long as the character is in none of the parts**.
-/

set_option autoImplicit false

namespace AccessLog.Text

variable {c : Char} {sep : String}

/-- A part of a text that is cut at a character does not hold it. -/
theorem not_mem_of_mem_splitOn {cs part : List Char} (h : part ∈ cs.splitOn c) : c ∉ part := by
  induction cs generalizing part with
  | nil =>
    rcases List.mem_singleton.mp h with rfl
    exact List.not_mem_nil
  | cons d cs ih =>
    rw [List.splitOn_cons_eq_if_modifyHead] at h
    obtain ⟨first, rest, hsplit⟩ := List.exists_cons_of_ne_nil (List.splitOn_ne_nil c cs)
    rw [hsplit] at ih
    split at h
    · rw [hsplit] at h
      rcases List.mem_cons.mp h with rfl | hmem
      · exact List.not_mem_nil
      · exact ih hmem
    · rename_i hd
      rw [hsplit, List.modifyHead_cons] at h
      rcases List.mem_cons.mp h with rfl | hmem
      · intro hc
        rcases List.mem_cons.mp hc with heq | hc
        · simp [← heq] at hd
        · exact ih List.mem_cons_self hc
      · exact ih (List.mem_cons_of_mem first hmem)

/-- The parts of a text, put together again. -/
theorem intercalate_splitOn (hsep : sep.toList = [c]) (s : String) :
    sep.intercalate ((s.toList.splitOn c).map String.ofList) = s := by
  have hparts : String.toList ∘ String.ofList = id := funext fun cs => String.toList_ofList
  rw [← String.toList_inj, String.toList_intercalate, List.map_map, hparts, List.map_id, hsep]
  exact List.intercalate_splitOn c

/-- A text that is put together is cut into its parts. -/
theorem splitOn_intercalate (hsep : sep.toList = [c]) {parts : List String} (hne : parts ≠ [])
    (h : ∀ part ∈ parts, c ∉ part.toList) :
    (sep.intercalate parts).toList.splitOn c = parts.map String.toList := by
  rw [String.toList_intercalate, hsep]
  exact List.splitOn_intercalate c (by simpa using h) (by simpa using hne)

/-- Every text is put together from parts. -/
theorem exists_intercalate (hsep : sep.toList = [c]) (s : String) : ∃ parts : List String,
    parts ≠ [] ∧ (∀ part ∈ parts, c ∉ part.toList) ∧ sep.intercalate parts = s := by
  refine ⟨_, ?_, ?_, intercalate_splitOn hsep s⟩
  · simp
  · simp only [List.mem_map]
    rintro _ ⟨part, hpart, rfl⟩
    rw [String.toList_ofList]
    exact not_mem_of_mem_splitOn hpart

end AccessLog.Text
