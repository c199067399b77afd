import AccessLog.Program.Encode
import AccessLog.Proofs.Json.Unambiguous
import AccessLog.Proofs.Tables

/-!
# Programs are told apart by their JSON text

Two things can make two programs share a text: that they are written as the same tree, or that two
trees have one text. The second does not happen to a tree that is whole (`Tree.compact_inj`), and
what a program is written as is whole. For the first, every choice has a tag of its own, so that
**each encoder is injective** once its parts are: the names of a table by the law of tables, and
everything above them part by part.

A well-known member and a name of its own with the same spelling have different tags, and a part
that is not there is written as null, which is no tree of a name or a limit.
-/

set_option autoImplicit false

namespace AccessLog

open Json Tree

/-! ## Tables and parts -/

/-- No two members of a table share a spelling. -/
theorem Table.name_inj {F : Type} [Table F] [Table.Lawful F] {f g : F} :
    name f = name g ↔ f = g := by
  rw [← ofName?_eq_some_iff, Lawful.ofName?_name, Option.some.injEq]
  exact eq_comm

@[simp] theorem IntMetric.name_inj {m n : IntMetric} : m.name = n.name ↔ m = n :=
  Table.name_inj (F := IntMetric)

@[simp] theorem StrMetric.name_inj {m n : StrMetric} : m.name = n.name ↔ m = n :=
  Table.name_inj (F := StrMetric)

@[simp] theorem Flag.name_inj {f g : Flag} : f.name = g.name ↔ f = g :=
  Table.name_inj (F := Flag)

@[simp] theorem Side.text_inj {s s' : Side} : s.text = s'.text ↔ s = s' := by
  cases s <;> cases s' <;> decide

@[simp] theorem Stage.text_inj {s s' : Stage} : s.text = s'.text ↔ s = s' := by
  cases s <;> cases s' <;> decide

@[simp] theorem tagged_inj {a b : String} {t u : Tree} :
    tagged a t = tagged b u ↔ a = b ∧ t = u := by
  simp [tagged]

/-- A part that may be missing is told from one that is there, if that is not written as null. -/
theorem orNull_inj {α : Type} {f : α → Tree} (hne : ∀ a, f a ≠ .null)
    (hf : ∀ a b, f a = f b → a = b) {a b : Option α} : orNull f a = orNull f b ↔ a = b := by
  cases a with
  | none =>
    cases b with
    | none => simp
    | some b => simpa [orNull] using (hne b).symm
  | some a =>
    cases b with
    | none => simpa [orNull] using hne a
    | some b => simpa [orNull] using ⟨hf a b, congrArg f⟩

/-! ## Selectors -/

theorem FieldRef.encode_ne_null {F : Type} [Namespace F] (r : FieldRef F) : r.encode ≠ .null := by
  cases r <;> nofun

section

variable {F : Type} [Namespace F] [Namespace.Lawful F]

@[simp] theorem FieldRef.encode_inj {r r' : FieldRef F} : r.encode = r'.encode ↔ r = r' := by
  cases r with
  | wellKnown f =>
    cases r' with
    | wellKnown g => simp [encode, Table.name_inj]
    | custom name => simp [encode]
  | custom name =>
    cases r' with
    | wellKnown g => simp [encode]
    | custom name' => simp [encode]

@[simp] theorem Selector.encode_inj {s s' : Selector F} : s.encode = s'.encode ↔ s = s' := by
  have hfallback : orNull FieldRef.encode s.fallback = orNull FieldRef.encode s'.fallback ↔
      s.fallback = s'.fallback :=
    orNull_inj FieldRef.encode_ne_null fun _ _ => FieldRef.encode_inj.mp
  cases s
  cases s'
  simp_all [encode]

end

/-! ## Instructions -/

@[simp] theorem Query.encode_inj {q r : Query} : q.encode = r.encode ↔ q = r := by
  cases q with
  | startTime pattern => cases r <;> simp [encode]
  | int metric => cases r <;> simp [encode]
  | str metric => cases r <;> simp [encode]
  | flag f => cases r <;> simp [encode]
  | header side selector => cases r <;> simp [encode]
  | trailer selector => cases r <;> simp [encode]
  | body side selector => cases r <;> simp [encode]
  | uri selector => cases r <;> simp [encode]
  | routerInfo selector => cases r <;> simp [encode]
  | middleware stage selector => cases r <;> simp [encode]

/-- Literal text has a tag that no query has. -/
theorem Query.encode_ne_text (q : Query) (s : String) : q.encode ≠ tagged "text" (.string s) := by
  cases q <;> simp [encode]

@[simp] theorem Op.encode_inj {op op' : Op} : op.encode = op'.encode ↔ op = op' := by
  cases op with
  | text s =>
    cases op' with
    | text s' => simp [encode]
    | field q => simpa [encode] using (q.encode_ne_text s).symm
  | field q =>
    cases op' with
    | text s => simpa [encode] using q.encode_ne_text s
    | field r => simp [encode]

@[simp] theorem Instruction.encode_inj {i j : Instruction} : i.encode = j.encode ↔ i = j := by
  have hlimit : orNull (fun n => .number (.int (n : Nat))) i.limit
      = orNull (fun n => .number (.int (n : Nat))) j.limit ↔ i.limit = j.limit :=
    orNull_inj (by simp) (by simp)
  cases i
  cases j
  simp_all [encode]

theorem Program.encode_inj {p q : Program} : p.encode = q.encode ↔
    p.template = q.template ∧ p.instructions = q.instructions := by
  have hinj : Function.Injective Instruction.encode := fun _ _ => Instruction.encode_inj.mp
  simp [encode, hinj.list_map.eq_iff]

/-! ## Whole trees -/

theorem every_tagged {tag : String} {t : Tree} (h : t.every whole = true) :
    (tagged tag t).every whole = true := by
  simpa [tagged, every_object, whole] using h

theorem every_orNull {α : Type} {f : α → Tree} (h : ∀ a, (f a).every whole = true)
    (a : Option α) : (orNull f a).every whole = true := by
  cases a with
  | none => rfl
  | some a => exact h a

theorem FieldRef.every_encode {F : Type} [Namespace F] (r : FieldRef F) :
    r.encode.every whole = true := by
  cases r with
  | wellKnown f => exact every_tagged rfl
  | custom name => exact every_tagged rfl

theorem Selector.every_encode {F : Type} [Namespace F] (s : Selector F) :
    s.encode.every whole = true := by
  have hfallback := every_orNull FieldRef.every_encode s.fallback
  simp [encode, every_object, whole, FieldRef.every_encode, hfallback]

/-- A choice of two parts. -/
theorem every_pair {s : String} {t : Tree} (h : t.every whole = true) :
    (Tree.list [.string s, t]).every whole = true := by
  have hstring : (Tree.string s).every whole = true := rfl
  simp [every_array, whole, hstring, h]

theorem Query.every_encode (q : Query) : q.encode.every whole = true := by
  cases q with
  | startTime _ | int _ | str _ | flag _ => exact every_tagged rfl
  | trailer selector | routerInfo selector => exact every_tagged selector.every_encode
  | uri selector => exact every_tagged selector.every_encode
  | header _ selector => exact every_tagged (every_pair selector.every_encode)
  | body _ selector => exact every_tagged (every_pair selector.every_encode)
  | middleware _ selector => exact every_tagged (every_pair selector.every_encode)

theorem Op.every_encode (op : Op) : op.encode.every whole = true := by
  cases op with
  | text literal => exact every_tagged rfl
  | field query => exact query.every_encode

theorem Instruction.every_encode (i : Instruction) : i.encode.every whole = true := by
  have hlimit : (orNull (fun n => .number (.int (n : Nat))) i.limit).every whole = true :=
    every_orNull (fun _ => rfl) _
  simp [encode, every_object, whole, i.op.every_encode, hlimit]

theorem Program.every_encode (p : Program) : p.encode.every whole = true := by
  have hinstructions : ∀ i ∈ p.instructions, i.encode.every whole = true :=
    fun i _ => i.every_encode
  have htemplate : (Tree.string p.template).every whole = true := rfl
  simpa [encode, every_object, every_array, whole, htemplate] using hinstructions

/-! ## Texts -/

/-- **The JSON text of a program loses nothing.** Programs share a text only if they have the same
template and the same instructions, and so do the texts of what a program consists of: of two
different instructions, operations or names none are written alike. -/
theorem Program.text_determines :
    (∀ p q : Program, p.encode.compact = q.encode.compact ↔
      p.template = q.template ∧ p.instructions = q.instructions) ∧
    (∀ i j : Instruction, i.encode.compact = j.encode.compact ↔ i = j) ∧
    (∀ op op' : Op, op.encode.compact = op'.encode.compact ↔ op = op') ∧
    (∀ s s' : Selector HttpField, s.encode.compact = s'.encode.compact ↔ s = s') ∧
    (∀ s s' : Selector UriField, s.encode.compact = s'.encode.compact ↔ s = s') ∧
    (∀ s s' : Selector MiddlewareField, s.encode.compact = s'.encode.compact ↔ s = s') ∧
    ∀ s s' : Selector Verbatim, s.encode.compact = s'.encode.compact ↔ s = s' := by
  refine ⟨fun p q => ?_, fun i j => ?_, fun op op' => ?_, fun s s' => ?_, fun s s' => ?_,
    fun s s' => ?_, fun s s' => ?_⟩
  · rw [compact_inj p.every_encode q.every_encode, encode_inj]
  · rw [compact_inj i.every_encode j.every_encode, Instruction.encode_inj]
  · rw [compact_inj op.every_encode op'.every_encode, Op.encode_inj]
  all_goals rw [compact_inj s.every_encode s'.every_encode, Selector.encode_inj]

/-- A member and a name of its own. -/
example : (FieldRef.wellKnown HttpField.host).encode.compact = "\x7b\"well_known\":\"host\"\x7d" ∧
    (FieldRef.custom "host" : FieldRef HttpField).encode.compact
      = "\x7b\"custom\":\"host\"\x7d" := by
  decide

end AccessLog
