import AccessLog.Proofs.Compile.Failure

/-!
# Which fault a field has

Much can be wrong with one field, and several things at once: its name may be no command while its
parenthesis is never closed, its length may be no number while its parameter is one too many. One
of them is reported, and which one is a matter of the field alone. `Fault` says it without the
compiler, a fault for each kind of cause and the conditions under which it is *the* fault of the
field. The order of precedence lies in these conditions, since a later fault needs that the field
has got past the earlier ones:

- first the name, whatever follows it;
- then the parenthesis, and what is left behind its partner, which is nothing or a length;
- then whether there should be a parameter;
- and last what the parameter says.

**A body has a fault exactly when the compiler stops there with that cause**
(`fieldOf_eq_error_iff`), so there is at most one, and none exactly when the body compiles.
-/

set_option autoImplicit false

namespace AccessLog

/-- What the names in the parameter of a command are, for commands that take such names. -/
def Command.kind? : Command → Option String
  | .startTime | .int _ | .str _ | .flag _ => none
  | .header _ => some (Namespace.kind HttpField)
  | .trailer | .body _ | .routerInfo => some (Namespace.kind Verbatim)
  | .uri => some (Namespace.kind UriField)
  | .middleware _ => some (Namespace.kind MiddlewareField)

namespace Compile

open Grammar

/-! ## Behind the name -/

/-- What follows a name as a parameter and the tail behind it. The parameter runs from a
parenthesis at the very front to the first one that closes; else all is tail. -/
inductive Divided : List Char → List Char → List Char → Prop where
  | bare {tail : List Char} (h : ∀ inside, tail ≠ '(' :: inside) : Divided tail [] tail
  | around {parameter tail : List Char} (hend : ')' ∉ parameter) :
    Divided ('(' :: (parameter ++ ')' :: tail)) parameter tail

theorem divided_or_unclosed (after : List Char) :
    (∃ parameter tail, Divided after parameter tail) ∨
      ∃ inside, after = '(' :: inside ∧ ')' ∉ inside := by
  by_cases hopen : ∃ inside, after = '(' :: inside
  · obtain ⟨inside, rfl⟩ := hopen
    by_cases hclose : ')' ∈ inside
    · obtain ⟨parameter, tail, rfl, hend⟩ := List.eq_append_cons_of_mem hclose
      exact .inl ⟨parameter, tail, .around hend⟩
    · exact .inr ⟨inside, rfl, hclose⟩
  · exact .inl ⟨[], after, .bare fun inside h => hopen ⟨inside, h⟩⟩

theorem Divided.partsOf_eq {after parameter tail : List Char} (h : Divided after parameter tail)
    (field : String) :
    partsOf field after = (fun limit => ⟨parameter, limit⟩) <$> limitOf field tail := by
  cases h with
  | bare h => exact partsOf_bare field h
  | around hend => exact partsOf_around field hend

/-- A tail that is neither empty nor begins with a colon is too much. -/
theorem limitOf_trailing {tail : List Char} (field : String) (hne : tail ≠ [])
    (hcolon : ∀ value, tail ≠ ':' :: value) :
    limitOf field tail = .error (.trailingCharacters field (String.ofList tail)) := by
  unfold limitOf
  split
  · exact absurd rfl hne
  · exact absurd rfl (hcolon _)
  · rfl

theorem limitOf_invalid {value : List Char} (field : String)
    (h : ∀ limit, ¬ Length (':' :: value) limit) :
    limitOf field (':' :: value) = .error (.invalidLength field (String.ofList value)) := by
  cases hlimit : limitOf field (':' :: value) with
  | ok limit => exact absurd (limitOf_eq_ok_iff.mp hlimit) (h limit)
  | error cause =>
    unfold limitOf at hlimit
    split at hlimit
    · cases hlimit
    · rename_i heq
      cases heq
      split at hlimit
      · cases hlimit
      · cases hlimit
        rfl
    · rename_i hcolon
      exact absurd rfl (hcolon value)

/-! ## Selectors -/

/-- A parameter that is not empty but has an empty half, or has a second question mark. -/
def Spoilt (parameter : List Char) : Prop :=
  parameter.head? = some '?' ∨ parameter.getLast? = some '?' ∨ 1 < parameter.count '?'

/-- What is not spoilt is one name, or two with a question mark between them. -/
theorem names_of_not_spoilt {parameter : List Char} (h : ¬ Spoilt parameter) :
    '?' ∉ parameter ∨
      ∃ a b, parameter = a ++ '?' :: b ∧ a ≠ [] ∧ '?' ∉ a ∧ b ≠ [] ∧ '?' ∉ b := by
  by_cases hmark : '?' ∈ parameter
  · obtain ⟨a, b, rfl, ha⟩ := List.eq_append_cons_of_mem hmark
    refine .inr ⟨a, b, rfl, ?_, ha, ?_, ?_⟩
    · rintro rfl
      exact h (.inl rfl)
    · rintro rfl
      exact h (.inr (.inl (by simp)))
    · intro hb
      have hcount := List.count_pos_iff.mpr hb
      apply h
      right
      right
      rw [List.count_append, List.count_cons_self]
      omega
  · exact .inl hmark

theorem Spoilt.not_names {parameter : List Char} (h : Spoilt parameter) :
    ¬ ('?' ∉ parameter ∨
      ∃ a b, parameter = a ++ '?' :: b ∧ a ≠ [] ∧ '?' ∉ a ∧ b ≠ [] ∧ '?' ∉ b) := by
  rintro (hmark | ⟨a, b, rfl, hne, ha, hne', hb⟩)
  · rcases h with hhead | hlast | hcount
    · exact hmark (List.mem_of_head? hhead)
    · exact hmark (List.mem_of_getLast? hlast)
    · rw [List.count_eq_zero.mpr hmark] at hcount
      omega
  · rcases h with hhead | hlast | hcount
    · rw [List.head?_append_of_ne_nil _ hne] at hhead
      exact ha (List.mem_of_head? hhead)
    · rw [List.getLast?_append_cons, List.getLast?_cons_of_ne_nil hne'] at hlast
      exact hb (List.mem_of_getLast? hlast)
    · rw [List.count_append, List.count_cons_self, List.count_eq_zero.mpr ha,
        List.count_eq_zero.mpr hb] at hcount
      omega

theorem selectorOf_spoilt {F : Type} [Namespace F] {parameter : List Char} (field : String)
    (h : Spoilt parameter) : selectorOf (F := F) field parameter
      = .error (.invalidSelector field (String.ofList parameter) (Namespace.kind F)) := by
  cases hselector : selectorOf (F := F) field parameter with
  | ok selector =>
    refine absurd ?_ h.not_names
    exact (shape_of_selectorOf hselector).imp_left And.right
  | error cause =>
    unfold selectorOf at hselector
    split at hselector
    · cases hselector
    · cases hselector
    · cases hselector
      rfl

/-- A parameter that is not spoilt is read, whatever is made of the selector. -/
theorem exists_map_selectorOf {F : Type} [Namespace F] {parameter : List Char}
    (field : String) (make : Selector F → Query) (hne : parameter ≠ [])
    (h : ¬ Spoilt parameter) :
    ∃ query, (make <$> selectorOf field parameter) = .ok query := by
  rcases names_of_not_spoilt h with hplain | ⟨a, b, rfl, hne, ha, hne', hb⟩
  · rw [selectorOf_one field hne hplain]
    exact ⟨_, rfl⟩
  · rw [selectorOf_two field hne ha hne' hb]
    exact ⟨_, rfl⟩

theorem queryOf_spoilt {parameter : List Char} {command : Command} {kind : String}
    (field : String) (hkind : command.kind? = some kind) (h : Spoilt parameter) :
    queryOf field parameter command
      = .error (.invalidSelector field (String.ofList parameter) kind) := by
  cases command with
  | startTime | int _ | str _ | flag _ => cases hkind
  | header _ | trailer | body _ | uri | routerInfo | middleware _ =>
    cases hkind
    apply map_eq_error_iff.mpr
    exact selectorOf_spoilt field h

/-- A parameter that the arity admits is only ever refused for its names. -/
theorem exists_queryOf {parameter : List Char} {command : Command} (field : String)
    (harity : command.arity.Admits parameter)
    (h : ∀ kind, command.kind? = some kind → ¬ Spoilt parameter) :
    ∃ query, queryOf field parameter command = .ok query := by
  cases command with
  | startTime | int _ | str _ | flag _ => exact ⟨_, rfl⟩
  | header _ | trailer | body _ | uri | routerInfo | middleware _ =>
    exact exists_map_selectorOf field _ harity (h _ rfl)

/-! ## The fault of a field -/

/-- **What is wrong with a field**, by its name and what follows the name. -/
inductive Fault (name : String) (after : List Char) : Cause → Prop where
  /-- The name is no command. Nothing is said about what follows. -/
  | unknownField (hname : ∀ command : Command, command.name ≠ name) :
    Fault name after (.unknownField name)
  /-- A parenthesis opens behind the name, and none closes. -/
  | unterminatedParameter {command : Command} (hname : command.name = name)
    {inside : List Char} (hafter : after = '(' :: inside) (hopen : ')' ∉ inside) :
    Fault name after (.unterminatedParameter name)
  /-- The tail is not empty, but does not begin with a colon either. -/
  | trailingCharacters {command : Command} (hname : command.name = name)
    {parameter tail : List Char} (hafter : Divided after parameter tail) (hne : tail ≠ [])
    (hcolon : ∀ value, tail ≠ ':' :: value) :
    Fault name after (.trailingCharacters name (String.ofList tail))
  /-- The tail begins with a colon, but what follows is no length. -/
  | invalidLength {command : Command} (hname : command.name = name)
    {parameter value : List Char} (hafter : Divided after parameter (':' :: value))
    (hvalue : ∀ limit, ¬ Length (':' :: value) limit) :
    Fault name after (.invalidLength name (String.ofList value))
  /-- All is well behind the name, but there should be no parameter. -/
  | unexpectedParameter {command : Command} (hname : command.name = name)
    {parameter tail : List Char} (hafter : Divided after parameter tail) {limit : Option Nat}
    (hlength : Length tail limit) (harity : command.arity = .none) (hne : parameter ≠ []) :
    Fault name after (.unexpectedParameter name)
  /-- There should be one. -/
  | missingParameter {command : Command} (hname : command.name = name)
    {tail : List Char} (hafter : Divided after [] tail) {limit : Option Nat}
    (hlength : Length tail limit) (harity : command.arity = .required) :
    Fault name after (.missingParameter name)
  /-- There is one as there should be, but it does not hold one or two names. -/
  | invalidSelector {command : Command} (hname : command.name = name)
    {parameter tail : List Char} (hafter : Divided after parameter tail) {limit : Option Nat}
    (hlength : Length tail limit) {kind : String} (hkind : command.kind? = some kind)
    (hne : parameter ≠ []) (hspoilt : Spoilt parameter) :
    Fault name after (.invalidSelector name (String.ofList parameter) kind)

/-- A body whose parts are known is compiled from them. -/
theorem fieldOf_eq {command : Command} {body parameter tail : List Char}
    (hname : nameOf body = command.name.toList)
    (hafter : Divided (afterName body) parameter tail) :
    fieldOf body = (do
      let limit ← limitOf command.name tail
      checkArity command.name command.arity parameter
      let query ← queryOf command.name parameter command
      return ⟨.field query, limit⟩) := by
  have hcommand : Command.lookup? command.name = some command :=
    Command.lookup?_eq_some_iff.mpr rfl
  unfold fieldOf
  simp only [hname, String.ofList_toList, hcommand, hafter.partsOf_eq, bind_map_left]

/-- A command that takes names requires them. -/
theorem arity_of_kind {command : Command} {kind : String} (h : command.kind? = some kind) :
    command.arity = .required := by
  cases command with
  | startTime | int _ | str _ | flag _ => cases h
  | header _ | trailer | body _ | uri | routerInfo | middleware _ => rfl

/-- The compiler stops at a fault. -/
theorem Fault.fieldOf_eq {body : List Char} {cause : Cause}
    (h : Fault (String.ofList (nameOf body)) (afterName body) cause) :
    fieldOf body = .error cause := by
  have hbody {command : Command} (hname : command.name = String.ofList (nameOf body)) :
      nameOf body = command.name.toList := by
    rw [hname, String.toList_ofList]
  cases h with
  | unknownField hname =>
    have hnone : Command.lookup? (String.ofList (nameOf body)) = none := by
      rw [Option.eq_none_iff_forall_ne_some]
      intro command hcommand
      exact hname command (Command.lookup?_eq_some_iff.mp hcommand)
    unfold fieldOf
    simp only [hnone]
  | @unterminatedParameter command hname inside hafter hopen =>
    have hcommand := Command.lookup?_eq_some_iff.mpr hname
    unfold fieldOf
    simp only [hcommand, hafter, partsOf_unclosed _ hopen]
    rfl
  | @trailingCharacters command hname parameter tail hafter hne hcolon =>
    rw [Compile.fieldOf_eq (hbody hname) hafter, limitOf_trailing _ hne hcolon, hname]
    rfl
  | @invalidLength command hname parameter value hafter hvalue =>
    rw [Compile.fieldOf_eq (hbody hname) hafter, limitOf_invalid _ hvalue, hname]
    rfl
  | @unexpectedParameter command hname parameter tail hafter limit hlength harity hne =>
    obtain ⟨c, parameter, rfl⟩ := List.exists_cons_of_ne_nil hne
    rw [Compile.fieldOf_eq (hbody hname) hafter, limitOf_eq_ok_iff.mpr hlength, harity, hname]
    rfl
  | @missingParameter command hname tail hafter limit hlength harity =>
    rw [Compile.fieldOf_eq (hbody hname) hafter, limitOf_eq_ok_iff.mpr hlength, harity, hname]
    rfl
  | @invalidSelector command hname parameter tail hafter limit hlength kind hkind hne hspoilt =>
    rw [Compile.fieldOf_eq (hbody hname) hafter, limitOf_eq_ok_iff.mpr hlength,
      queryOf_spoilt _ hkind hspoilt, checkArity_eq_ok_iff.mpr (arity_of_kind hkind ▸ hne), hname]
    rfl

theorem length_or_fault (tail : List Char) :
    (∃ limit, Length tail limit) ∨ (tail ≠ [] ∧ ∀ value, tail ≠ ':' :: value) ∨
      ∃ value, tail = ':' :: value ∧ ∀ limit, ¬ Length tail limit := by
  by_cases hlength : ∃ limit, Length tail limit
  · exact .inl hlength
  · have hnone : ∀ limit, ¬ Length tail limit := fun limit h => hlength ⟨limit, h⟩
    by_cases hcolon : ∃ value, tail = ':' :: value
    · obtain ⟨value, rfl⟩ := hcolon
      exact .inr (.inr ⟨value, rfl, hnone⟩)
    · refine .inr (.inl ⟨?_, fun value h => hcolon ⟨value, h⟩⟩)
      rintro rfl
      exact hnone none .absent

/-- A body without a fault compiles. -/
theorem exists_fault_or_fieldOf (body : List Char) :
    (∃ cause, Fault (String.ofList (nameOf body)) (afterName body) cause) ∨
      ∃ i, fieldOf body = .ok i := by
  by_cases hknown : ∃ command : Command, command.name = String.ofList (nameOf body)
  swap
  · exact .inl ⟨_, .unknownField fun command hname => hknown ⟨command, hname⟩⟩
  obtain ⟨command, hname⟩ := hknown
  rcases divided_or_unclosed (afterName body) with ⟨parameter, tail, hafter⟩ | ⟨inside, hafter, hopen⟩
  swap
  · exact .inl ⟨_, .unterminatedParameter hname hafter hopen⟩
  rcases length_or_fault tail with ⟨limit, hlength⟩ | ⟨hne, hcolon⟩ | ⟨value, rfl, hvalue⟩
  rotate_left
  · exact .inl ⟨_, .trailingCharacters hname hafter hne hcolon⟩
  · exact .inl ⟨_, .invalidLength hname hafter hvalue⟩
  -- what is left is the parameter, first that there is one or not, then what it says
  by_cases harity : command.arity.Admits parameter
  · by_cases hspoilt : ∃ kind, command.kind? = some kind ∧ Spoilt parameter
    · obtain ⟨kind, hkind, hspoilt⟩ := hspoilt
      have hne : parameter ≠ [] := by
        rwa [arity_of_kind hkind] at harity
      exact .inl ⟨_, .invalidSelector hname hafter hlength hkind hne hspoilt⟩
    · have hnames : ∀ kind, command.kind? = some kind → ¬ Spoilt parameter :=
        fun kind hkind h => hspoilt ⟨kind, hkind, h⟩
      obtain ⟨query, hquery⟩ := exists_queryOf command.name harity hnames
      have hbody : nameOf body = command.name.toList := by
        rw [hname, String.toList_ofList]
      refine .inr ⟨⟨.field query, limit⟩, ?_⟩
      rw [Compile.fieldOf_eq hbody hafter, limitOf_eq_ok_iff.mpr hlength,
        checkArity_eq_ok_iff.mpr harity, hquery]
      rfl
  · cases hvalue : command.arity with
    | none =>
      rw [hvalue] at harity
      exact .inl ⟨_, .unexpectedParameter hname hafter hlength hvalue harity⟩
    | required =>
      rw [hvalue] at harity
      cases not_not.mp harity
      exact .inl ⟨_, .missingParameter hname hafter hlength hvalue⟩
    | optional =>
      rw [hvalue] at harity
      exact absurd trivial harity

/-- **The compiler stops in a body exactly for its fault.** -/
theorem fieldOf_eq_error_iff {body : List Char} {cause : Cause} :
    fieldOf body = .error cause ↔
      Fault (String.ofList (nameOf body)) (afterName body) cause := by
  constructor
  · intro h
    rcases exists_fault_or_fieldOf body with ⟨cause', hfault⟩ | ⟨i, hi⟩
    · have heq := hfault.fieldOf_eq
      rw [h] at heq
      cases heq
      exact hfault
    · rw [h] at hi
      cases hi
  · exact Fault.fieldOf_eq

/-- A fault is about the field whose name it was found under. -/
theorem Fault.field_eq {name : String} {after : List Char} {cause : Cause}
    (h : Fault name after cause) : cause.field? = some name := by
  cases h with
  | unknownField _ | unterminatedParameter _ _ _ | trailingCharacters _ _ _ _
  | invalidLength _ _ _ | unexpectedParameter _ _ _ _ _ | missingParameter _ _ _ _
  | invalidSelector _ _ _ _ _ _ => rfl

/-- There are characters too many only behind a parenthesis, for without one the tail is all that
follows the name, and begins with a colon. -/
theorem Fault.opens_of_trailing {name field tail : String} {after : List Char}
    (hends : EndsField after) (h : Fault name after (.trailingCharacters field tail)) :
    ∃ inside, after = '(' :: inside := by
  generalize hcause : Cause.trailingCharacters field tail = cause at h
  cases h with
  | trailingCharacters _ hafter hne hcolon =>
    cases hafter with
    | around _ => exact ⟨_, rfl⟩
    | bare hopen =>
      obtain ⟨c, rest, rfl⟩ := List.exists_cons_of_ne_nil hne
      have hc : c = '(' ∨ c = ':' := by
        simpa [endsName] using hends c rfl
      rcases hc with rfl | rfl
      · exact absurd rfl (hopen rest)
      · exact absurd rfl (hcolon rest)
  | unknownField _ | unterminatedParameter _ _ _ | invalidLength _ _ _
  | unexpectedParameter _ _ _ _ _ | missingParameter _ _ _ _ | invalidSelector _ _ _ _ _ _ =>
    cases hcause

/-! ## The fault of a field in a format -/

/-- What is wrong at a percent sign behind a format that compiles is what is wrong with the body
behind it: errors further on are at other places. -/
theorem compile_field_eq_error_iff {front body rest : String} {cause : Cause}
    (hfront : ∃ p, compile front = .ok p) (hbody : '%' ∉ body.toList) :
    compile (front ++ "%" ++ body ++ "%" ++ rest) = .error ⟨cause, front.utf8ByteSize⟩ ↔
      bodyOf body.toList = .error cause := by
  obtain ⟨instructions, hscan⟩ := exists_compile_iff.mp hfront
  have hchars : (front ++ "%" ++ body ++ "%" ++ rest).toList
      = front.toList ++ '%' :: (body.toList ++ '%' :: rest.toList) := by simp
  rw [compile_eq_error_iff, hchars, scan_append_percent _ hscan, map_eq_error_iff,
    scan_field _ hbody, Nat.zero_add, Text.byteSize_toList]
  cases bodyOf body.toList with
  | error cause' => simp [Except.mapError, bind, Except.bind]
  | ok i =>
    constructor
    · intro h
      rcases bind_eq_error_iff.mp h with hbody | ⟨_, -, h⟩
      · cases hbody
      rcases bind_eq_error_iff.mp h with hrest | ⟨_, -, h⟩
      · obtain ⟨before, _, -, -, -, hplace⟩ := scan_eq_error_iff.mp hrest
        simp only at hplace
        omega
      · cases h
    · intro h
      cases h

/-- A body that compiles does so behind a format that does. -/
theorem exists_compile_field {front body : String} {i : Instruction}
    (hfront : ∃ p, compile front = .ok p) (hbody : '%' ∉ body.toList)
    (hi : bodyOf body.toList = .ok i) : ∃ p, compile (front ++ "%" ++ body ++ "%") = .ok p := by
  obtain ⟨instructions, hscan⟩ := exists_compile_iff.mp hfront
  have hchars : (front ++ "%" ++ body ++ "%").toList
      = front.toList ++ '%' :: (body.toList ++ '%' :: []) := by simp
  rw [exists_compile_iff, hchars, scan_append_percent _ hscan, scan_field _ hbody, hi]
  exact ⟨_, rfl⟩

end Compile

/-- **What a field fails for is determined by its body, in a fixed order of precedence.** Behind
whatever compiles, a body that is not empty is a name and what follows it. There the format fails,
at the percent sign that opens the field, exactly for the fault that these have. The fault is
reported with the name, and when there is none, the field compiles. -/
theorem compile_field_fault {front body : String} (hfront : ∃ p, compile front = .ok p)
    (hbody : '%' ∉ body.toList) (hne : body ≠ "") :
    ∃ name after : String, body = name ++ after ∧ (∀ c ∈ name.toList, c ≠ '(' ∧ c ≠ ':') ∧
      (∀ c ∈ after.toList.head?, c = '(' ∨ c = ':') ∧
      (∀ rest cause, compile (front ++ "%" ++ body ++ "%" ++ rest)
          = .error ⟨cause, front.utf8ByteSize⟩ ↔ Compile.Fault name after.toList cause) ∧
      (∀ cause, Compile.Fault name after.toList cause → cause.field? = some name) ∧
      (∀ field tail, Compile.Fault name after.toList (.trailingCharacters field tail) →
        ∃ inside, after = "(" ++ inside) ∧
      ((∀ cause, ¬ Compile.Fault name after.toList cause) ↔
        ∃ p, compile (front ++ "%" ++ body ++ "%") = .ok p) := by
  have hends := Compile.endsField_afterName body.toList
  have hfield : Compile.bodyOf body.toList = Compile.fieldOf body.toList :=
    Compile.bodyOf_of_ne_nil (by simpa using hne)
  have hfault : ∀ rest cause, compile (front ++ "%" ++ body ++ "%" ++ rest)
      = .error ⟨cause, front.utf8ByteSize⟩ ↔ Compile.Fault
        (String.ofList (Compile.nameOf body.toList)) (Compile.afterName body.toList) cause := by
    intro rest cause
    rw [Compile.compile_field_eq_error_iff hfront hbody, hfield, Compile.fieldOf_eq_error_iff]
  refine ⟨String.ofList (Compile.nameOf body.toList),
    String.ofList (Compile.afterName body.toList), ?_, ?_, ?_, ?_, ?_, ?_, ?_⟩
  · rw [← String.ofList_append, Compile.nameOf_append_afterName, String.ofList_toList]
  · intro c hc
    rw [String.toList_ofList] at hc
    simpa [Compile.endsName] using Compile.endsName_of_mem_nameOf hc
  · intro c hc
    rw [String.toList_ofList] at hc
    simpa [Compile.endsName] using hends c hc
  · rw [String.toList_ofList]
    exact hfault
  · exact fun cause h => h.field_eq
  · intro field tail h
    rw [String.toList_ofList] at h
    obtain ⟨inside, hafter⟩ := h.opens_of_trailing hends
    refine ⟨String.ofList inside, ?_⟩
    rw [hafter, ← String.toList_inj]
    simp
  · rw [String.toList_ofList]
    constructor
    · intro hnone
      rcases Compile.exists_fault_or_fieldOf body.toList with ⟨cause, h⟩ | ⟨i, hi⟩
      · exact absurd h (hnone cause)
      · exact Compile.exists_compile_field hfront hbody (hfield.trans hi)
    · rintro ⟨p, hp⟩ cause h
      have herror := (hfault "" cause).mpr h
      rw [String.append_empty, hp] at herror
      cases herror

/-- A parameter too many and a length with a sign: the length is reported, behind a wide character
and whatever follows. A selector with an empty half that is never closed is not closed, and one
that is closed has an empty half. -/
theorem compile_field_fault_overlapping :
    (∀ rest, compile ("é" ++ "%" ++ "BYTES_SENT(x):+1" ++ "%" ++ rest)
      = .error ⟨.invalidLength "BYTES_SENT" "+1", 2⟩) ∧
    (∀ rest, compile ("é" ++ "%" ++ "REQ(?:x" ++ "%" ++ rest)
      = .error ⟨.unterminatedParameter "REQ", 2⟩) ∧
    (∀ rest, compile ("é" ++ "%" ++ "REQ(a?):1" ++ "%" ++ rest)
      = .error ⟨.invalidSelector "REQ" "a?" "HTTP field", 2⟩) ∧
    ∀ rest, compile ("é" ++ "%" ++ "NOPE(x:" ++ "%" ++ rest)
      = .error ⟨.unknownField "NOPE", 2⟩ := by
  have hfront : ∃ p, compile "é" = .ok p := ⟨_, rfl⟩
  refine ⟨?_, ?_, ?_, ?_⟩
  · obtain ⟨_, _, -, -, -, hfault, -⟩ :=
      @compile_field_fault "é" "BYTES_SENT(x):+1" hfront (by decide) (by decide)
    exact fun rest => (hfault rest _).mpr ((hfault "" _).mp rfl)
  · obtain ⟨_, _, -, -, -, hfault, -⟩ :=
      @compile_field_fault "é" "REQ(?:x" hfront (by decide) (by decide)
    exact fun rest => (hfault rest _).mpr ((hfault "" _).mp rfl)
  · obtain ⟨_, _, -, -, -, hfault, -⟩ :=
      @compile_field_fault "é" "REQ(a?):1" hfront (by decide) (by decide)
    exact fun rest => (hfault rest _).mpr ((hfault "" _).mp rfl)
  · obtain ⟨_, _, -, -, -, hfault, -⟩ :=
      @compile_field_fault "é" "NOPE(x:" hfront (by decide) (by decide)
    exact fun rest => (hfault rest _).mpr ((hfault "" _).mp rfl)

end AccessLog
