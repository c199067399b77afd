import AccessLog.Proofs.Binary64.Rounding
import AccessLog.Proofs.Json.Parse
import AccessLog.Proofs.Json.Shape

/-!
# The doubles of a document

A double is a triple of parts, and not every triple has the form of a double. **Those that are read
from a document have** (`Value.normal_of_read?`): every number that is no integer of 64 bits is
rounded, and what is rounded is a double. So what is shown for doubles of that form is shown for all
that a document can hold.
-/

set_option autoImplicit false

namespace AccessLog.Json

open Reader

instance (x : Binary64) : Decidable x.Normal :=
  decidable_of_iff ((x.mantissa < 2 ^ Binary64.precision ∧ Binary64.minExponent ≤ x.exponent ∧
      (Binary64.minExponent < x.exponent → 2 ^ (Binary64.precision - 1) ≤ x.mantissa)) ∧
      x.exponent ≤ Binary64.maxExponent)
    ⟨fun h => ⟨⟨h.1.1, h.1.2.1, h.1.2.2⟩, h.2⟩, fun h => ⟨⟨h.fits, h.least, h.full⟩, h.finite⟩⟩

/-- Whether a number is an integer or has the form of a double. -/
def Number.normal : Number → Bool
  | .int _ => true
  | .float x => decide x.Normal

namespace Reader

variable {cs rest : List Char} {n : Number}

theorem normal_of_float? {negative : Bool} {whole fraction : List Char} {exponent : Int}
    (h : float? negative whole fraction exponent = some n) : n.normal = true := by
  obtain ⟨x, hx, rfl⟩ := Option.map_eq_some_iff.mp h
  exact decide_eq_true (Binary64.normal_of_ofDecimal? hx)

theorem normal_of_integer? {negative : Bool} {whole : List Char}
    (h : integer? negative whole = some n) : n.normal = true := by
  unfold integer? at h
  dsimp only at h
  split_ifs at h
  · cases h
    rfl
  · exact normal_of_float? h
  · cases h
    rfl
  · exact normal_of_float? h

theorem normal_of_number? (h : number? cs = some (n, rest)) : n.normal = true := by
  rw [number?_eq, unsigned?_eq_some_iff] at h
  obtain ⟨-, fraction, behind, -, ⟨e, exponent, power, -, -, -, hx⟩ | ⟨-, -, hx⟩⟩ := h
  · exact normal_of_float? hx
  · split at hx
    · exact normal_of_integer? hx
    · exact normal_of_float? hx

end Reader

/-- **The doubles of a document have the form of a double.** -/
theorem Value.normal_of_read? {source : String} {v : Value} (h : Value.read? source = some v) :
    v.every (Value.ifNumber Number.normal) = true := by
  obtain ⟨t, ht, hv⟩ := Value.read?_eq_some_iff.mp h
  obtain ⟨rest, hparses, -⟩ := Document.read_eq_iff.mp ht
  exact Tree.numbers_of_value? hv (hparses.numbers normal_of_number?)

/-! ## Numbers of the parts of a record -/

variable {q : Number → Bool} {v : Value}

theorem Value.every_of_given? {names : List String} {given : List (String × Value)}
    (h : v.every (Value.ifNumber q) = true) (hgiven : v.given? names = some given) :
    ∀ m ∈ given, m.2.every (Value.ifNumber q) = true := by
  cases v with
  | object members =>
    cases hgiven
    exact (Value.every_object.mp h).2
  | array items =>
    simp only [Value.given?, Option.ite_none_right_eq_some, Option.some.injEq] at hgiven
    obtain ⟨-, rfl⟩ := hgiven
    exact fun m hm => (Value.every_array.mp h).2 m.2 (List.of_mem_zip hm).2
  | null | bool _ | number _ | string _ => cases hgiven

/-- A part of a record is the default one, or it is meant by a value with no other numbers than
those of the record. -/
theorem Spelling.exists_part_of_means {α : Type} {parts : List (Part α)} {default a : α}
    {part : Part α} (hpart : part ∈ parts) (h : (Spelling.record parts default).Means v a)
    (hv : v.every (Value.ifNumber q) = true) :
    part.get a = part.get default ∨
      ∃ w : Value, w.every (Value.ifNumber q) = true ∧ part.spelling.Means w (part.get a) := by
  obtain ⟨given, hgiven, -, hparts⟩ := h
  have hholds := hparts part hpart
  cases hlookup : given.lookup part.name with
  | none => exact .inl ((Part.holds_iff_of_missing hlookup).mp hholds)
  | some w =>
    obtain ⟨front, back, rfl, -⟩ := List.lookup_eq_some_iff.mp hlookup
    exact .inr ⟨w, Value.every_of_given? hv hgiven (part.name, w) (by simp),
      (Part.holds_iff_of_lookup hlookup).mp hholds⟩

end AccessLog.Json
