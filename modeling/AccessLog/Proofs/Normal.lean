import AccessLog.Proofs.Grammar

/-!
# Normal programs

Not every list of instructions is what some format means. A compiled one is **normal**
(`Normal`): its texts are single percent signs or whole runs, its patterns and names could stand
in a parameter, no name is left unresolved, and every limit can be written. This file says what
that is, decides it, and reads it off the pieces of a format: **whatever the grammar gives a
meaning is normal** (`Grammar.Format.normal`). That nothing more can be said, because every normal
list is the meaning of some format, is shown with the canonical text.
-/

set_option autoImplicit false

namespace AccessLog

/-! ## The normal forms -/

/-- A reference that a name can resolve to: a member, or a name that is no member and could stand
in a parameter. -/
def FieldRef.Normal {F : Type} [Namespace F] : FieldRef F → Prop
  | .wellKnown _ => True
  | .custom name => Namespace.Plain name.toList ∧ ¬ Namespace.HasMember F name

/-- Both halves of a selector are normal. -/
def Selector.Normal {F : Type} [Namespace F] (s : Selector F) : Prop :=
  ∀ ref ∈ s.refs, ref.Normal

/-- A query that a field can ask: its pattern or its selector can be written in parentheses. -/
def Query.Normal : Query → Prop
  | .startTime pattern => '%' ∉ pattern.toList ∧ ')' ∉ pattern.toList
  | .int _ | .str _ | .flag _ => True
  | .header _ selector => selector.Normal
  | .trailer selector | .body _ selector | .routerInfo selector => selector.Normal
  | .uri selector => selector.Normal
  | .middleware _ selector => selector.Normal

namespace Instruction

/-- An instruction on its own: text without a limit, a percent sign or a run; or a normal query
with a limit below the bound. -/
def Normal (i : Instruction) : Prop :=
  match i.op with
  | .text s => i.limit = none ∧ (s = "%" ∨ s ≠ "" ∧ '%' ∉ s.toList)
  | .field query => query.Normal ∧ ∀ n ∈ i.limit, n < 2 ^ 64

/-- Text other than the percent sign. -/
def IsRun (i : Instruction) : Prop :=
  match i.op with
  | .text s => s ≠ "%"
  | .field _ => False

end Instruction

/-- **The instructions of a program that some format compiles to.** -/
structure Normal (instructions : List Instruction) : Prop where
  each : ∀ i ∈ instructions, i.Normal
  /-- Two runs of text would be one. -/
  apart : instructions.IsChain fun a b => ¬ (a.IsRun ∧ b.IsRun)

/-! Normality is decided by looking at the instructions. -/

instance {F : Type} [Namespace F] (ref : FieldRef F) : Decidable ref.Normal :=
  match ref with
  | .wellKnown _ => .isTrue trivial
  | .custom _ => inferInstanceAs (Decidable (_ ∧ ¬ _))

instance {F : Type} [Namespace F] (s : Selector F) : Decidable s.Normal :=
  inferInstanceAs (Decidable (∀ ref ∈ s.refs, ref.Normal))

instance (query : Query) : Decidable query.Normal :=
  match query with
  | .startTime _ => inferInstanceAs (Decidable (_ ∉ _ ∧ _ ∉ _))
  | .int _ | .str _ | .flag _ => .isTrue trivial
  | .header _ selector => inferInstanceAs (Decidable selector.Normal)
  | .trailer selector | .body _ selector | .routerInfo selector =>
    inferInstanceAs (Decidable selector.Normal)
  | .uri selector => inferInstanceAs (Decidable selector.Normal)
  | .middleware _ selector => inferInstanceAs (Decidable selector.Normal)

instance (i : Instruction) : Decidable i.Normal :=
  match i with
  | ⟨.text s, limit⟩ => inferInstanceAs (Decidable (limit = none ∧ (s = "%" ∨ _ ∧ _)))
  | ⟨.field query, limit⟩ => inferInstanceAs (Decidable (query.Normal ∧ ∀ n ∈ limit, _))

instance (i : Instruction) : Decidable i.IsRun :=
  match i with
  | ⟨.text s, _⟩ => inferInstanceAs (Decidable (s ≠ "%"))
  | ⟨.field _, _⟩ => .isFalse id

instance (instructions : List Instruction) : Decidable (Normal instructions) :=
  decidable_of_iff
    ((∀ i ∈ instructions, i.Normal) ∧ instructions.IsChain fun a b => ¬ (a.IsRun ∧ b.IsRun))
    ⟨fun h => ⟨h.1, h.2⟩, fun h => ⟨h.each, h.apart⟩⟩

/-! ## What the grammar means is normal -/

namespace Grammar

/-- A parameter, if there is one, ends neither the field nor the parentheses. -/
theorem Brackets.parameter_plain {brackets parameter : List Char}
    (h : Brackets brackets parameter) : '%' ∉ parameter ∧ ')' ∉ parameter := by
  cases h with
  | absent => exact ⟨List.not_mem_nil, List.not_mem_nil⟩
  | around hpercent hend => exact ⟨hpercent, hend⟩

theorem refers_normal {F : Type} [Namespace F] {a : List Char} {ref : FieldRef F}
    (hplain : Namespace.Plain a) (h : FieldRef.Refers (String.ofList a) ref) : ref.Normal := by
  cases h with
  | member _ => exact trivial
  | other hnone =>
    refine ⟨?_, hnone⟩
    rw [String.toList_ofList]
    exact hplain

theorem Names.normal {F : Type} [Namespace F] {parameter : List Char} {selector : Selector F}
    (h : Names parameter selector) (hpercent : '%' ∉ parameter) (hend : ')' ∉ parameter) :
    selector.Normal := by
  intro ref href
  cases h with
  | one hne hmark hrefers =>
    rcases List.mem_cons.mp href with rfl | hmem
    · exact refers_normal ⟨hne, hpercent, hend, hmark⟩ hrefers
    · cases hmem
  | two hne hmark hrefers hne' hmark' hrefers' =>
    rw [List.mem_append, not_or, List.mem_cons, not_or] at hpercent hend
    rcases List.mem_cons.mp href with rfl | hmem
    · exact refers_normal ⟨hne, hpercent.1, hend.1, hmark⟩ hrefers
    · rcases List.mem_singleton.mp hmem with rfl
      exact refers_normal ⟨hne', hpercent.2.2, hend.2.2, hmark'⟩ hrefers'

theorem Asks.normal {command : Command} {parameter : List Char} {query : Query}
    (h : Asks command parameter query) (hpercent : '%' ∉ parameter) (hend : ')' ∉ parameter) :
    query.Normal := by
  cases h with
  | startTime _ =>
    show '%' ∉ (String.ofList parameter).toList ∧ ')' ∉ (String.ofList parameter).toList
    rw [String.toList_ofList]
    exact ⟨hpercent, hend⟩
  | int _ _ => exact trivial
  | str _ _ => exact trivial
  | flag _ _ => exact trivial
  | header _ hnames | trailer hnames | body _ hnames | uri hnames | routerInfo hnames
  | middleware _ hnames => exact hnames.normal hpercent hend

theorem Length.bounded {length : List Char} {limit : Option Nat} (h : Length length limit) :
    ∀ n ∈ limit, n < 2 ^ 64 := by
  intro n hn
  cases h with
  | absent => cases hn
  | digits _ _ hbound =>
    cases hn
    exact hbound

theorem Piece.normal {p : List Char} {i : Instruction} (h : Piece p i) : i.Normal := by
  cases h with
  | run hrun =>
    refine ⟨rfl, .inr ⟨fun hempty => hrun.1 (String.ofList_eq_empty_iff.mp hempty), ?_⟩⟩
    rw [String.toList_ofList]
    exact hrun.2
  | percent => exact ⟨rfl, .inl rfl⟩
  | field hfield =>
    cases hfield with
    | mk _ hbrackets hlength _ hasks =>
      obtain ⟨hpercent, hend⟩ := hbrackets.parameter_plain
      exact ⟨hasks.normal hpercent hend, hlength.bounded⟩

/-- A piece is a run of text exactly when it means one. -/
theorem Piece.isRun_iff {p : List Char} {i : Instruction} (h : Piece p i) :
    IsRun p ↔ i.IsRun := by
  cases h with
  | run hrun =>
    refine ⟨fun _ heq => hrun.2 ?_, fun _ => hrun⟩
    have hp : p = ['%'] := by
      rw [← String.toList_ofList (l := p), heq]
      rfl
    rw [hp]
    exact List.mem_singleton_self '%'
  | percent => exact ⟨fun hrun => absurd hrun (not_isRun_percent _), fun hrun => absurd rfl hrun⟩
  | field hfield =>
    cases hfield
    exact ⟨fun hrun => absurd hrun (not_isRun_percent _), False.elim⟩

/-- Neighbours that are apart as pieces are apart as instructions. -/
theorem apart_of_pieces {pieces : List (List Char)} {instructions : List Instruction}
    (hpieces : List.Forall₂ Piece pieces instructions) (hchain : pieces.IsChain Apart) :
    instructions.IsChain fun a b => ¬ (a.IsRun ∧ b.IsRun) := by
  induction hpieces with
  | nil => exact .nil
  | @cons p i pieces instructions hpiece hpieces ih =>
    rw [List.isChain_cons] at hchain ⊢
    refine ⟨fun j hj hboth => ?_, ih hchain.2⟩
    cases hpieces with
    | nil => cases hj
    | @cons q j' _ _ hpiece' _ =>
      cases hj
      exact hchain.1 q rfl ⟨hpiece.isRun_iff.mpr hboth.1, hpiece'.isRun_iff.mpr hboth.2⟩

theorem Format.normal {cs : List Char} {instructions : List Instruction}
    (h : Format cs instructions) : Normal instructions := by
  obtain ⟨pieces, -, hpieces, hchain⟩ := h
  refine ⟨fun i hi => ?_, apart_of_pieces hpieces hchain⟩
  clear hchain
  induction hpieces with
  | nil => cases hi
  | cons hpiece _ ih =>
    rcases List.mem_cons.mp hi with rfl | hmem
    · exact hpiece.normal
    · exact ih hmem

/-- A custom name that spells a member is not what any format means. -/
example : ¬ Normal [⟨.field (.header .request ⟨.custom "Host", none⟩), none⟩] := by decide

end Grammar

end AccessLog
