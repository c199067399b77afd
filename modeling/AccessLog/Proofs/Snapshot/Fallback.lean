import AccessLog.Proofs.Compile.Acceptance
import AccessLog.Proofs.Render.Denotation
import AccessLog.Proofs.Snapshot.Body
import AccessLog.Proofs.Snapshot.Headers

/-!
# Falling back on a second name

Ten commands take names in their parameter, and all of them treat a second name alike: it is what
is left if a snapshot has nothing under the first one. How a snapshot looks for a single name is a
matter of the command (`Command.accessor?`); that it looks for the second only then, and writes the
placeholder if that fails too, is not (`selector_fallback`).

What counts as nothing is the one thing that differs. A text does not, not even the empty one, but
null in a body does; there is always a number of names in a chain; and host and authority stand in
for each other, so that neither is missing as long as the other is there
(`Snapshot.Availability`).
-/

set_option autoImplicit false

namespace AccessLog

open Text (SameLetters)

/-! ## Trying names -/

/-- Looks a name up and makes a note of it. -/
def FieldRef.noting {F α : Type} (look : FieldRef F → Option α) (ref : FieldRef F) :
    StateM (List (FieldRef F)) (Option α) := do
  modify (· ++ [ref])
  return look ref

namespace Selector

variable {F α : Type}

/-- **The second name is looked up only if the first has no value**, and making a note of it changes
nothing. -/
theorem firstMatchM_noting (selector : Selector F) (look : FieldRef F → Option α)
    (noted : List (FieldRef F)) :
    (selector.firstMatchM (FieldRef.noting look)).run noted
      = (selector.firstMatch look,
        noted ++ if (look selector.primary).isSome then [selector.primary] else selector.refs) := by
  obtain ⟨primary, fallback⟩ := selector
  rw [firstMatch_eq_or]
  cases hfound : look primary with
  | some found =>
    simp only [firstMatchM, FieldRef.noting, hfound, pure_bind, bind_assoc]
    rfl
  | none =>
    simp only [firstMatchM, FieldRef.noting, hfound, pure_bind, bind_assoc]
    cases fallback with
    | some ref =>
      show (look ref, noted ++ [primary] ++ [ref]) = (look ref, noted ++ ([primary] ++ [ref]))
      rw [List.append_assoc]
    | none => rfl

end Selector

/-! ## The ten commands -/

/-- How a snapshot answers for the names in the parameter of a command. -/
structure Accessor where
  /-- What a name may be a member of. -/
  Member : Type
  [members : Namespace Member]
  [lawful : Namespace.Lawful Member]
  query : Selector Member → Query
  /-- What is found under a single name. -/
  look : Snapshot → FieldRef Member → Option String
  text?_query (s : Snapshot) (selector : Selector Member) :
    s.text? (query selector) = selector.firstMatch (look s) := by intros; rfl
  shown_query (s : Snapshot) (selector : Selector Member) :
    (query selector).shown <$> s.provider (query selector)
      = some (s.text? (query selector)) := by intros; rfl

attribute [instance] Accessor.members Accessor.lawful

/-- The accessor of a command that takes names. -/
def Command.accessor? : Command → Option Accessor
  | .startTime | .int _ | .str _ | .flag _ => none
  | .header side => some
    { Member := HttpField
      query := .header side
      look := fun s => (s.message side).field? }
  | .trailer => some
    { Member := Verbatim
      query := .trailer
      look := fun s ref => s.response.trailer? ref.name }
  | .body side => some
    { Member := Verbatim
      query := .body side
      look := fun s ref => (s.message side).bodyField? ref.name }
  | .uri => some
    { Member := UriField
      query := .uri
      look := fun s => s.uri.field? }
  | .routerInfo => some
    { Member := Verbatim
      query := .routerInfo
      look := fun s ref => s.routerInfo.get? ref.name }
  | .middleware stage => some
    { Member := MiddlewareField
      query := .middleware stage
      look := fun s => s.middleware.field? stage }

/-- The commands with an accessor are those that cannot do without a parameter. -/
theorem Command.exists_accessor_iff {command : Command} :
    (∃ accessor, command.accessor? = some accessor) ↔ command.arity = .required := by
  cases command with
  | startTime | int _ | str _ | flag _ => simp [accessor?, arity]
  | header _ | trailer | body _ | uri | routerInfo | middleware _ => simp [accessor?, arity]

/-- What a snapshot answers a command with a single name, if it has something there. -/
def Snapshot.named? (s : Snapshot) (command : Command) (name : String) : Option String :=
  command.accessor?.bind fun accessor => s.text? (accessor.query (.resolve name none))

theorem Snapshot.named?_eq_look {s : Snapshot} {command : Command} {accessor : Accessor}
    (h : command.accessor? = some accessor) (name : String) :
    s.named? command name = accessor.look s (.resolve name) := by
  rw [named?, h, Option.bind_some, accessor.text?_query, Selector.firstMatch_resolve_one]

/-- In any case of its letters, the name of a member is that member. -/
theorem Snapshot.named?_member {s : Snapshot} {command : Command} {accessor : Accessor}
    (h : command.accessor? = some accessor) {name : String} {f : accessor.Member}
    (hname : SameLetters name (Table.name f)) :
    s.named? command name = accessor.look s (.wellKnown f) := by
  rw [named?_eq_look h, FieldRef.resolve_of_sameLetters hname]

/-- With two names, the answer is that to the first, or else that to the second. -/
theorem Snapshot.text?_eq_or {s : Snapshot} {command : Command} {accessor : Accessor}
    (h : command.accessor? = some accessor) (a b : String) :
    s.text? (accessor.query (.resolve a (some b)))
      = (s.named? command a).or (s.named? command b) := by
  rw [accessor.text?_query, Selector.firstMatch_eq_or, named?_eq_look h, named?_eq_look h]
  rfl

namespace Compile

open Grammar

/-- Two names with a question mark between them are compiled to the query for both. -/
theorem queryOf_two {command : Command} {accessor : Accessor}
    (h : command.accessor? = some accessor) (field : String) {a b : List Char}
    (ha : Namespace.Plain a) (hb : Namespace.Plain b) :
    queryOf field (a ++ '?' :: b) command
      = .ok (accessor.query (.resolve (String.ofList a) (some (String.ofList b)))) := by
  cases command with
  | startTime | int _ | str _ | flag _ => cases h
  | header _ | trailer | body _ | uri | routerInfo | middleware _ =>
    cases h
    simp only [queryOf, selectorOf_two field ha.ne_nil ha.no_mark hb.ne_nil hb.no_mark]
    rfl

/-- A format that is one field with two names. -/
theorem compile_two {command : Command} {accessor : Accessor}
    (h : command.accessor? = some accessor) {a b length : String} {limit : Option Nat}
    (ha : Namespace.Plain a.toList) (hb : Namespace.Plain b.toList)
    (hlength : Length length.toList limit) :
    ∃ p, compile ("%" ++ command.name ++ "(" ++ a ++ "?" ++ b ++ ")" ++ length ++ "%") = .ok p ∧
      p.instructions = [⟨.field (accessor.query (.resolve a (some b))), limit⟩] := by
  have hpercent : '%' ∉ a.toList ++ '?' :: b.toList := by
    simp [ha.no_percent, hb.no_percent]
  have hparen : ')' ∉ a.toList ++ '?' :: b.toList := by
    simp [ha.no_paren, hb.no_paren]
  have harity : command.arity.Admits (a.toList ++ '?' :: b.toList) := by
    rw [Command.exists_accessor_iff.mp ⟨accessor, h⟩]
    show a.toList ++ '?' :: b.toList ≠ []
    simp
  have hasks := queryOf_eq_ok_iff.mp (queryOf_two h "" ha hb)
  simp only [String.ofList_toList] at hasks
  have hfield := Grammar.Field.mk command (.around hpercent hparen) hlength harity hasks
  have hchars : ("%" ++ command.name ++ "(" ++ a ++ "?" ++ b ++ ")" ++ length ++ "%").toList
      = '%' :: ((command.name.toList ++ (('(' :: ((a.toList ++ '?' :: b.toList) ++ [')']))
        ++ length.toList)) ++ ['%']) := by simp
  refine ⟨⟨_, _⟩, compile_eq_ok_iff_format.mpr ⟨rfl, [_], ?_, .cons (.field hfield) .nil, by simp⟩, rfl⟩
  simp

end Compile

/-- What a program of one field writes for a snapshot. -/
theorem Snapshot.render_field {s : Snapshot} {accessor : Accessor} {p : Program}
    {selector : Selector accessor.Member} {limit : Option Nat}
    (h : p.instructions = [⟨.field (accessor.query selector), limit⟩]) (style : Style) :
    p.render s.provider style = some (Render.wording limit style.placeholder
      (s.text? (accessor.query selector)) ++ style.delimiter) := by
  have hwritten : Instruction.written ⟨.field (accessor.query selector), limit⟩ s.provider
      style.placeholder = some (Render.wording limit style.placeholder
        (s.text? (accessor.query selector))) := by
    have hshown := congrArg (Render.wording limit style.placeholder <$> ·)
      (accessor.shown_query s selector)
    simpa [Instruction.written, Functor.map_map] using hshown
  rw [Program.render_eq_mapM, h]
  simp [hwritten]

/-! ## What counts as available -/

namespace Snapshot

/-- The texts that a snapshot keeps under names of their own, for commands that refer to them. -/
def texts (s : Snapshot) : Command → Dict String String
  | .header side => (s.message side).headers
  | .trailer => s.response.trailers
  | .uri => s.uri.query
  | .routerInfo => s.routerInfo
  | .middleware stage => (s.middleware.chain stage).attributes
  | .startTime | .int _ | .str _ | .flag _ | .body _ => {}

/-- When there is something under a name. -/
structure Availability (s : Snapshot) : Prop where
  /-- In a body there is something unless the path leads nowhere or to null. -/
  body (side : Side) (path : String) : (s.named? (.body side) path).isSome = true ↔
    ∃ body w, (s.message side).body = some body ∧ body.Reaches path w ∧ w ≠ .null
  /-- The name of a member gives what there is for the member, in any case of its letters. -/
  member (command : Command) (accessor : Accessor) (hcommand : command.accessor? = some accessor)
    (name : String) (f : accessor.Member) (hname : SameLetters name (Table.name f)) :
    s.named? command name = accessor.look s (.wellKnown f)
  /-- Any other name gives the text that is kept under it, whatever it says, the empty one too. -/
  text (command : Command) (accessor : Accessor) (hcommand : command.accessor? = some accessor)
    (name value : String)
    (hother : (FieldRef.resolve name : FieldRef accessor.Member) = .custom name)
    (hmem : (name, value) ∈ (s.texts command).entries) : s.named? command name = some value
  bodyText (side : Side) (path value : String) (body : Json.Value)
    (hbody : (s.message side).body = some body) (hreach : body.Reaches path (.string value)) :
    s.named? (.body side) path = some value
  count (stage : Stage) (name : String) (hname : SameLetters name "count") :
    (s.named? (.middleware stage) name).isSome = true
  /-- The host is taken from the headers, or else from the authority. -/
  host (side : Side) (name : String) (hname : SameLetters name "host") :
    s.named? (.header side) name
      = ((s.message side).header? "host").or (s.message side).authority
  authority (side : Side) (name : String) (hname : SameLetters name ":authority") :
    s.named? (.header side) name
      = (s.message side).authority.or ((s.message side).header? "host")
  /-- So each is there if the other is. -/
  either (side : Side) (name : String)
    (hname : SameLetters name "host" ∨ SameLetters name ":authority") :
    (s.named? (.header side) name).isSome = true ↔ (s.message side).authority.isSome = true ∨
      ∃ entry ∈ (s.message side).headers.entries, SameLetters entry.1 "host"

theorem named?_body (s : Snapshot) (side : Side) (path : String) :
    s.named? (.body side) path = (s.message side).bodyField? path := by
  rw [named?_eq_look rfl]
  show (s.message side).bodyField? (FieldRef.name (FieldRef.resolve (F := Verbatim) path)) = _
  rw [FieldRef.resolve_verbatim]
  rfl

theorem named?_host (s : Snapshot) (side : Side) {name : String} (h : SameLetters name "host") :
    s.named? (.header side) name
      = ((s.message side).header? "host").or (s.message side).authority := by
  rw [named?_eq_look rfl]
  exact Message.field?_host h

theorem named?_authority (s : Snapshot) (side : Side) {name : String}
    (h : SameLetters name ":authority") :
    s.named? (.header side) name
      = (s.message side).authority.or ((s.message side).header? "host") := by
  rw [named?_eq_look rfl]
  exact Message.field?_authority h

/-- The identical key is found before all its other spellings. -/
theorem named?_of_mem_texts {s : Snapshot} {command : Command} {accessor : Accessor}
    (h : command.accessor? = some accessor) {name value : String}
    (hother : (FieldRef.resolve name : FieldRef accessor.Member) = .custom name)
    (hmem : (name, value) ∈ (s.texts command).entries) : s.named? command name = some value := by
  rw [named?_eq_look h, hother]
  cases command with
  | startTime | int _ | str _ | flag _ => cases h
  | body side => cases hmem
  | header _ | trailer =>
    cases h
    exact Dict.getUpToCase?_eq_iff.mpr (.identical hmem)
  | uri | routerInfo | middleware _ =>
    cases h
    exact Dict.mem_entries_iff.mp hmem

theorem availability (s : Snapshot) : s.Availability where
  body side path := by
    rw [named?_body, Option.isSome_iff_exists]
    simp only [Message.bodyField?_eq_some_iff]
    constructor
    · rintro ⟨text, body, w, hbody, hreach, hshown⟩
      exact ⟨body, w, hbody, hreach, Json.Value.exists_shown_iff.mp ⟨text, hshown⟩⟩
    · rintro ⟨body, w, hbody, hreach, hnull⟩
      obtain ⟨text, hshown⟩ := Json.Value.exists_shown_iff.mpr hnull
      exact ⟨text, body, w, hbody, hreach, hshown⟩
  member _ _ h _ _ hname := named?_member h hname
  text _ _ h _ _ hother hmem := named?_of_mem_texts h hother hmem
  bodyText side path value body hbody hreach := by
    rw [named?_body, Message.bodyField?_eq_some_iff]
    exact ⟨body, _, hbody, hreach, .bare value⟩
  count stage name hname := by
    have hcommand : Command.accessor? (.middleware stage) = some _ := rfl
    have hmember : SameLetters name (Table.name MiddlewareField.count) := hname
    rw [named?_member hcommand hmember]
    rfl
  host side name := s.named?_host side
  authority side name := s.named?_authority side
  either side name hname := by
    have hheader : ((s.message side).header? "host").isSome = true ↔ _ :=
      Dict.getUpToCase?_isSome_iff
    rcases hname with hname | hname
    · rw [s.named?_host side hname, Option.isSome_or, Bool.or_eq_true, hheader, or_comm]
    · rw [s.named?_authority side hname, Option.isSome_or, Bool.or_eq_true, hheader]

end Snapshot

/-- **A second name is what is left if there is nothing under the first**, for every command that
takes names. A field with both compiles, and writes the first characters of what is under the first,
or else those of what is under the second, or else the whole placeholder. The second name is looked
up only if there is nothing under the first. -/
theorem selector_fallback {command : Command} (hcommand : command.arity = .required)
    {a b length : String} {limit : Option Nat} (ha : Namespace.Plain a.toList)
    (hb : Namespace.Plain b.toList) (hlength : Grammar.Length length.toList limit) :
    ∃ p accessor,
      compile ("%" ++ command.name ++ "(" ++ a ++ "?" ++ b ++ ")" ++ length ++ "%") = .ok p ∧
      command.accessor? = some accessor ∧
      p.instructions = [⟨.field (accessor.query (.resolve a (some b))), limit⟩] ∧
      ∀ s : Snapshot,
        (∀ style : Style,
          (∀ value, s.named? command a = some value → p.render s.provider style
            = some (Render.firstCharacters limit value ++ style.delimiter)) ∧
          (s.named? command a = none → ∀ value, s.named? command b = some value →
            p.render s.provider style
              = some (Render.firstCharacters limit value ++ style.delimiter)) ∧
          (s.named? command a = none → s.named? command b = none →
            p.render s.provider style = some (style.placeholder ++ style.delimiter))) ∧
        ((Selector.resolve a (some b)).firstMatchM (FieldRef.noting (accessor.look s))).run []
          = (s.text? (accessor.query (.resolve a (some b))),
            if (s.named? command a).isSome then [.resolve a] else [.resolve a, .resolve b]) ∧
        s.Availability := by
  obtain ⟨accessor, haccessor⟩ := Command.exists_accessor_iff.mpr hcommand
  obtain ⟨p, hp, hinstructions⟩ := Compile.compile_two haccessor ha hb hlength
  refine ⟨p, accessor, hp, haccessor, hinstructions, fun s => ⟨fun style => ?_, ?_, ?_⟩⟩
  · rw [Snapshot.render_field hinstructions, Snapshot.text?_eq_or haccessor]
    refine ⟨?_, ?_, ?_⟩
    · intro value hfirst
      rw [hfirst]
      rfl
    · intro hfirst value hsecond
      rw [hfirst, hsecond]
      rfl
    · intro hfirst hsecond
      rw [hfirst, hsecond]
      rfl
  · rw [Selector.firstMatchM_noting, accessor.text?_query, Snapshot.named?_eq_look haccessor]
    rfl
  · exact s.availability

/-- The authority of a request that has only a `HOST` header is that header, cut to its length. It is
the second choice here, and where it is missing too the placeholder is written whole. -/
theorem selector_fallback_host :
    ∃ p, compile "%REQ(X-Id?:Authority):3%" = .ok p ∧
      p.render (Snapshot.provider { request := { headers := Dict.insert {} "HOST" "a.example" } })
        { placeholder := "none" } = some "a.e" ∧
      p.render (Snapshot.provider {}) { placeholder := "none" } = some "none" := by
  have ha : Namespace.Plain "X-Id".toList := by decide
  have hb : Namespace.Plain ":Authority".toList := by decide
  have hlength : Grammar.Length ":3".toList (some 3) :=
    @Grammar.Length.digits ['3'] (by decide) (by simp) (by decide)
  have hcommand : (Command.header .request).arity = .required := rfl
  obtain ⟨p, accessor, hp, -, -, hanswers⟩ := selector_fallback hcommand ha hb hlength
  refine ⟨p, hp, ?_, ?_⟩
  · exact ((hanswers _).1 _).2.1 (by decide) "a.example" (by decide)
  · exact ((hanswers _).1 _).2.2 (by decide) (by decide)

end AccessLog
