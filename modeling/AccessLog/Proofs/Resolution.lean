import AccessLog.Proofs.Tables

/-!
# What a name resolves to

A namespace looks for a name as it is or in lower case, and the letters of the name decide which.
What a user is told is simpler: **a name finds the one member that is spelled with the same
letters, and any other name stands for itself** (`Namespace.FindsUpToCase`).

The two ways agree because of what the tables hold, and of nothing else: the spellings of a
namespace are distinct and in lower case. That they are in ASCII as well is why no other character
ever counts as a letter of a member, whatever the rules of Unicode make of it.
-/

set_option autoImplicit false

namespace AccessLog

open Text (SameLetters)

/-- A namespace is searched by the letters of a name, without regard to their case. -/
structure Namespace.FindsUpToCase (F : Type) [Namespace F] : Prop where
  found_iff (name : String) (f : F) :
    lookup? name = some f ↔ SameLetters name (Table.name f)
  unique (name : String) (f g : F) (hf : SameLetters name (Table.name f))
    (hg : SameLetters name (Table.name g)) : f = g
  ascii (name : String) (f : F) (hfound : lookup? name = some f) :
    ∀ c ∈ name.toList, c.toNat < 128
  /-- A name stands for itself if it is no member's, and for the member otherwise. -/
  resolves (name : String) :
    (FieldRef.resolve (F := F) name = .custom name ∧ ∀ f : F, ¬ SameLetters name (Table.name f)) ∨
      ∃ f : F, FieldRef.resolve name = .wellKnown f ∧ SameLetters name (Table.name f)
  /-- What a name resolved to is found again by its own name. -/
  settled (name : String) :
    FieldRef.resolve (F := F) (FieldRef.resolve (F := F) name).name = .resolve name
  recased (name other : String) (hsame : SameLetters name other) :
    (∃ f : F, FieldRef.resolve name = .wellKnown f ∧ FieldRef.resolve other = .wellKnown f) ∨
      (FieldRef.resolve (F := F) name = .custom name ∧
        FieldRef.resolve (F := F) other = .custom other)

namespace FieldRef

variable {F : Type} [Namespace F] [Namespace.Lawful F]

/-- A name that is a member's resolves to the member. -/
theorem resolve_of_sameLetters {name : String} {f : F} (h : SameLetters name (Table.name f)) :
    resolve name = .wellKnown f :=
  resolve_eq_iff.mpr (.member (Text.sameUpToCase_iff.mpr h))

/-- And one that is no member's to itself. -/
theorem resolve_of_not_sameLetters {name : String}
    (h : ∀ f : F, ¬ SameLetters name (Table.name f)) : resolve (F := F) name = .custom name := by
  refine resolve_eq_iff.mpr (.other ?_)
  rintro ⟨f, -, hf⟩
  exact h f (Text.sameUpToCase_iff.mp hf)

/-- Where there are no members, every name stands for itself. -/
theorem resolve_verbatim (name : String) : (resolve name : FieldRef Verbatim) = .custom name :=
  resolve_of_not_sameLetters nofun

/-- Two spellings of a name resolve to the same member, or each to itself. -/
theorem resolve_recased {name other : String} (h : SameLetters name other) :
    (∃ f : F, resolve name = .wellKnown f ∧ resolve other = .wellKnown f) ∨
      (resolve (F := F) name = .custom name ∧ resolve (F := F) other = .custom other) := by
  by_cases hmember : ∃ f : F, SameLetters name (Table.name f)
  · obtain ⟨f, hf⟩ := hmember
    exact .inl ⟨f, resolve_of_sameLetters hf, resolve_of_sameLetters (h.symm.trans hf)⟩
  · have hnone := not_exists.mp hmember
    refine .inr ⟨resolve_of_not_sameLetters hnone, resolve_of_not_sameLetters ?_⟩
    intro f hf
    exact hnone f (h.trans hf)

end FieldRef

open FieldRef in

/-- Every lawful namespace whose spellings are in ASCII is searched this way. -/
theorem Namespace.findsUpToCase (F : Type) [Namespace F] [Namespace.Lawful F]
    (hascii : ∀ f : F, (Table.name f).toList.all (·.toNat < 128) = true) : FindsUpToCase F := by
  have hfound : ∀ (name : String) (f : F),
      lookup? name = some f ↔ SameLetters name (Table.name f) := by
    intro name f
    rw [lookup?_eq_some_iff, Text.sameUpToCase_iff]
  refine ⟨hfound, ?_, ?_, ?_, ?_, ?_⟩
  · intro name f g hf hg
    have hsome := (hfound name f).mpr hf
    rw [(hfound name g).mpr hg] at hsome
    exact (Option.some.inj hsome).symm
  · intro name f h
    exact ((hfound name f).mp h).ascii (by simpa using hascii f)
  · intro name
    by_cases hmember : ∃ f : F, SameLetters name (Table.name f)
    · obtain ⟨f, hf⟩ := hmember
      exact .inr ⟨f, resolve_of_sameLetters hf, hf⟩
    · have hnone := not_exists.mp hmember
      exact .inl ⟨resolve_of_not_sameLetters hnone, hnone⟩
  · intro name
    by_cases hmember : ∃ f : F, SameLetters name (Table.name f)
    · obtain ⟨f, hf⟩ := hmember
      rw [resolve_of_sameLetters hf]
      exact resolve_of_sameLetters (.refl _)
    · rw [resolve_of_not_sameLetters (not_exists.mp hmember)]
      exact resolve_of_not_sameLetters (not_exists.mp hmember)
  · intro name other hsame
    exact resolve_recased hsame

/-- **All namespaces are searched up to case**, the one without members among them: each finds a
member by its letters alone, and hands on any other name as it is. -/
theorem namespaces_find_up_to_case :
    Namespace.FindsUpToCase HttpField ∧ Namespace.FindsUpToCase UriField ∧
      Namespace.FindsUpToCase MiddlewareField ∧ Namespace.FindsUpToCase Verbatim := by
  refine ⟨Namespace.findsUpToCase _ fun f => ?_, Namespace.findsUpToCase _ fun f => ?_,
    Namespace.findsUpToCase _ fun f => ?_, Namespace.findsUpToCase _ fun f => ?_⟩
  · cases f <;> decide
  · cases f <;> decide
  · cases f <;> decide
  · cases f

/-- The Kelvin sign is written as a small `k` by Unicode, but it is no letter of a cookie. -/
example : (FieldRef.resolve "coo\u212Aie" : FieldRef HttpField) = .custom "coo\u212Aie" := by decide

/-! ## Two names -/

/-- The first of two names that has a value is the one that counts. -/
theorem Selector.firstMatch_eq_or {F α : Type} (selector : Selector F)
    (look : FieldRef F → Option α) :
    selector.firstMatch look = (look selector.primary).or (selector.fallback.bind look) := by
  obtain ⟨primary, fallback⟩ := selector
  cases hfound : look primary with
  | some found =>
    simp only [firstMatch, firstMatchM, hfound]
    rfl
  | none =>
    simp only [firstMatch, firstMatchM, hfound]
    cases fallback with
    | some ref => rfl
    | none => rfl

/-- Selectors whose names differ in case only give the same, if each name on its own does. -/
theorem Selector.firstMatch_recased {F α : Type} [Namespace F] {look look' : FieldRef F → Option α}
    (h : ∀ {name other : String}, SameLetters name other →
      look' (.resolve other) = look (.resolve name))
    {a a' : String} {b b' : Option String} (ha : SameLetters a a')
    (hb : Option.Rel SameLetters b b') :
    (resolve a' b').firstMatch look' = (resolve a b).firstMatch look := by
  rw [firstMatch_eq_or, firstMatch_eq_or]
  have hfirst : look' (resolve a' b').primary = look (resolve a b).primary := h ha
  have hsecond : (resolve a' b').fallback.bind look' = (resolve a b).fallback.bind look := by
    cases hb with
    | none => rfl
    | some hb => exact h hb
  rw [hfirst, hsecond]

end AccessLog
