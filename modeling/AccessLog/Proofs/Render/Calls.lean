import AccessLog.Proofs.Render.Denotation

/-!
# What a program asks

A program learns about an exchange by asking its provider, and **a render asks one question for
each field, in the order of the fields, and no other** (`renderInto_noting`). Which questions these
are is known beforehand, from the program alone: they are its queries (`Program.queries`), each
the accessor of a field together with its pattern, metric or selector as compiled. That an answer
is missing is no reason to ask again.

The questions are made visible by a provider that notes each of them before it answers like
another one (`Provider.noting`). A provider may be in any lawful monad here, and it is the same
render that is looked at, so nothing is said about a copy of the renderer that keeps a list.

What a program does not ask cannot show in what it writes: providers that answer its queries alike
are the same to it (`renderInto_congr`).
-/

set_option autoImplicit false

namespace AccessLog

/-- The question that an instruction asks. Literal text asks none. -/
def Instruction.query? (i : Instruction) : Option Query :=
  match i.op with
  | .text _ => none
  | .field query => some query

/-- The questions of a program, in the order of its instructions. -/
def Program.queries (p : Program) : List Query := p.instructions.filterMap Instruction.query?

variable {m : Type → Type} [Monad m] {α : Type}

/-- A provider that makes a note of every query before it answers like another one. -/
def Provider.noting (note : Query → α) (provider : Provider m) :
    Provider (StateT (List α) m) := fun query => do
  modify (· ++ [note query])
  provider query

/-- A recording notes the keys of what it is asked for. -/
theorem Provider.recording_eq_noting (values : List (String × Stored)) (otherwise : Otherwise) :
    ∃ provider : Provider Id, recording values otherwise = provider.noting key :=
  ⟨fun query => ((recording values otherwise query).run []).1, rfl⟩

variable [LawfulMonad m]

/-! ## The questions of a render -/

theorem Instruction.written_noting (i : Instruction) (note : Query → α) (provider : Provider m)
    (placeholder : String) (notes : List α) :
    (i.written (provider.noting note) placeholder).run notes
      = (·, notes ++ i.query?.toList.map note) <$> i.written provider placeholder := by
  obtain ⟨op, limit⟩ := i
  cases op with
  | text literal => simp [written, query?]
  | field query => simp [written, query?, Provider.noting]

theorem mapM_written_noting (instructions : List Instruction) (note : Query → α)
    (provider : Provider m) (placeholder : String) (notes : List α) :
    StateT.run (instructions.mapM fun i : Instruction =>
        i.written (provider.noting note) placeholder) notes
      = (·, notes ++ (instructions.filterMap Instruction.query?).map note) <$>
        instructions.mapM fun i : Instruction => i.written provider placeholder := by
  -- for any notes, since each instruction adds to those of the ones before it
  induction instructions generalizing notes with
  | nil => simp
  | cons i instructions ih =>
    have hqueries : (i :: instructions).filterMap Instruction.query?
        = i.query?.toList ++ instructions.filterMap Instruction.query? := by
      cases hquery : i.query? <;> simp [hquery]
    simp [StateT.run_bind, i.written_noting, ih, hqueries]

/-! ## What is not asked -/

omit [LawfulMonad m] in
theorem Instruction.written_congr {i : Instruction} {provider other : Provider m}
    (h : ∀ query ∈ i.query?, other query = provider query) (placeholder : String) :
    i.written other placeholder = i.written provider placeholder := by
  obtain ⟨op, limit⟩ := i
  cases op with
  | text literal => rfl
  | field query => simp only [written, h query rfl]

theorem mapM_written_congr {instructions : List Instruction} {provider other : Provider m}
    (h : ∀ query ∈ instructions.filterMap Instruction.query?, other query = provider query)
    (placeholder : String) :
    (instructions.mapM fun i : Instruction => i.written other placeholder)
      = instructions.mapM fun i : Instruction => i.written provider placeholder := by
  induction instructions with
  | nil => rfl
  | cons i instructions ih =>
    have hfirst : ∀ query ∈ i.query?, other query = provider query := fun query hquery =>
      h query (List.mem_filterMap.mpr ⟨i, List.mem_cons_self, hquery⟩)
    have hrest : ∀ query ∈ instructions.filterMap Instruction.query?,
        other query = provider query := by
      intro query hquery
      obtain ⟨j, hj, hquery⟩ := List.mem_filterMap.mp hquery
      exact h query (List.mem_filterMap.mpr ⟨j, List.mem_cons_of_mem i hj, hquery⟩)
    rw [List.mapM_cons, List.mapM_cons, Instruction.written_congr hfirst, ih hrest]

namespace Program

/-- **A render asks the queries of its program**, each once and in order, whatever was asked
before and whatever is answered. -/
theorem renderInto_noting (p : Program) (line : String) (note : Query → α)
    (provider : Provider m) (style : Style) (notes : List α) :
    (p.renderInto line (provider.noting note) style).run notes
      = (·, notes ++ p.queries.map note) <$> p.renderInto line provider style := by
  rw [renderInto_eq_mapM, renderInto_eq_mapM, StateT.run_map, mapM_written_noting,
    Functor.map_map, Functor.map_map]
  rfl

/-- **Providers that answer the queries of a program alike are the same to it.** -/
theorem renderInto_congr {p : Program} {provider other : Provider m}
    (h : ∀ query ∈ p.queries, other query = provider query) (line : String) (style : Style) :
    p.renderInto line other style = p.renderInto line provider style := by
  rw [renderInto_eq_mapM, renderInto_eq_mapM, mapM_written_congr h]

end Program

/-- **All that a render sees of an exchange are the answers to the queries of its program.** It
asks them in order, each once; under the names of the accessors, that is what a recording writes
down; and a provider that answers them alike makes the same line. -/
theorem renderInto_asks_queries (p : Program) (line : String) (style : Style)
    (provider : Provider m) :
    (∀ asked : List Query, (p.renderInto line (provider.noting id) style).run asked
      = (·, asked ++ p.queries) <$> p.renderInto line provider style) ∧
    (∀ values otherwise keys, ((p.renderInto line (.recording values otherwise) style).run keys).2
      = keys ++ p.queries.map Provider.key) ∧
    ∀ other : Provider m, (∀ query ∈ p.queries, other query = provider query) →
      p.renderInto line other style = p.renderInto line provider style := by
  refine ⟨?_, ?_, ?_⟩
  · intro asked
    rw [p.renderInto_noting, List.map_id]
  · intro values otherwise keys
    obtain ⟨answers, hanswers⟩ := Provider.recording_eq_noting values otherwise
    rw [hanswers, p.renderInto_noting]
    rfl
  · intro other h
    exact Program.renderInto_congr h line style

/-- A header that is missing is asked for once, and what is not asked for makes no difference. -/
theorem renderInto_asks_missing_header :
    let p : Program := ⟨"", [⟨.field (.header .request ⟨.custom "x", some (.wellKnown .host)⟩),
      some 2⟩, .literal " ", ⟨.field (.int .duration), none⟩]⟩
    let provider := Provider.minimal "" (some 5) none
    (p.renderInto "" (provider.noting id) {}).run []
      = ("- 5", [.header .request ⟨.custom "x", some (.wellKnown .host)⟩, .int .duration]) ∧
    ((p.renderInto "" (.recording [] .unavailable) {}).run []).2
      = ["request_header:x?host", "int:DURATION"] ∧
    (∀ query ∈ p.queries, Provider.minimal "now" (some 5) (some "secret") query = provider query) ∧
    p.renderInto "" (.minimal "now" (some 5) (some "secret")) {} = p.renderInto "" provider {} := by
  intro p provider
  have hline : (p.renderInto "" provider {}).run = "- 5" := by decide +kernel
  have hagree : ∀ query ∈ p.queries,
      Provider.minimal "now" (some 5) (some "secret") query = provider query := by
    intro query hquery
    rcases List.mem_cons.mp hquery with rfl | hquery
    · rfl
    · rcases List.mem_singleton.mp hquery with rfl
      rfl
  obtain ⟨hasks, hkeys, hsame⟩ := renderInto_asks_queries p "" {} provider
  refine ⟨?_, ?_, hagree, hsame _ hagree⟩
  · exact (hasks []).trans (congrArg (·, p.queries) hline)
  · rw [hkeys]
    decide

end AccessLog
