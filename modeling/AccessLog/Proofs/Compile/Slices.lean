import AccessLog.Proofs.Compile.Field
import AccessLog.Proofs.Text.Slice

/-!
# Fields by slices

The rules for the body of a field (`nameOf`, `partsOf`, `selectorOf` and those built on them) take a
list of characters apart. Here are the same rules for a reader that has the body as bytes, finds the
characters that matter by their offsets and takes slices between them. Every slice is one that may
not be there, and then there is no result.

**Each of the readers has a result, and it is that of the rule** (`name?_eq` and so on, up to
`body?_eq`), so none of the slices is ever missing. The reason is the same each time: an offset that
was found is the size of what stands before the character, the characters that are looked for take
one byte each, and so each slice is the part of a text between a front and a back.
-/

set_option autoImplicit false

namespace AccessLog

namespace Compile

open Text

/-! ## Names and lengths -/

/-- The name of a field is the slice before the first character that ends it. -/
def name? (body : List Char) : Option (List Char) :=
  slice? body 0 ((offsetOf? endsName body).getD (byteSize body))

theorem name?_eq (body : List Char) : name? body = some (nameOf body) := by
  have hname : ∀ c ∈ nameOf body, endsName c = false := fun _ => endsName_of_mem_nameOf
  have hstop : (offsetOf? endsName body).getD (byteSize body) = byteSize (nameOf body) := by
    conv_lhs => rw [← nameOf_append_afterName body]
    cases hafter : afterName body with
    | nil => simp [offsetOf?_eq_none hname]
    | cons c rest =>
      have hc : endsName c = true := endsField_afterName body c (by simp [hafter])
      rw [offsetOf?_append hname hc, Option.getD_some]
  have hfront := slice?_front (nameOf body) (afterName body)
  rwa [nameOf_append_afterName, ← hstop] at hfront

/-- What follows a name begins where the name ends. -/
theorem slice?_afterName (body : List Char) :
    slice? body (byteSize (nameOf body)) (byteSize body) = some (afterName body) := by
  have hback := slice?_back (nameOf body) (afterName body)
  rwa [nameOf_append_afterName] at hback

def limit? (field : String) (tail : List Char) : Option (Except Cause (Option Nat)) := do
  if tail.isEmpty then return .ok none
  match ← strip? ':' tail with
  | none => return .error (.trailingCharacters field (String.ofList tail))
  | some digits =>
    match length? digits with
    | some n => return .ok (some n)
    | none => return .error (.invalidLength field (String.ofList digits))

theorem limit?_eq (field : String) (tail : List Char) :
    limit? field tail = some (limitOf field tail) := by
  cases tail with
  | nil => rfl
  | cons c digits =>
    by_cases hcolon : c = ':'
    · subst hcolon
      simp only [limit?, strip?_cons, limitOf, Option.bind_eq_bind, Option.bind_some]
      cases length? digits with
      | none => rfl
      | some n => rfl
    · have hstrip : strip? ':' (c :: digits) = some none :=
        strip?_eq_none fun rest heq => hcolon (List.cons.inj heq).1
      simp [limit?, hstrip, limitOf, hcolon]

/-! ## Parameters -/

def parts? (body : List Char) : Option (Except Cause Parts) := do
  let name ← name? body
  let field := String.ofList name
  let rest ← slice? body (byteSize name) (byteSize body)
  match ← strip? '(' rest with
  | some inside =>
    match offsetOf? (· == ')') inside with
    | none => return .error (.unterminatedParameter field)
    | some stop =>
      let parameter ← slice? inside 0 stop
      let tail ← slice? inside (stop + 1) (byteSize inside)
      return (⟨parameter, ·⟩) <$> (← limit? field tail)
  | none => return (⟨[], ·⟩) <$> (← limit? field rest)

theorem parts?_eq (body : List Char) :
    parts? body = some (partsOf (String.ofList (nameOf body)) (afterName body)) := by
  simp only [parts?, name?_eq, slice?_afterName, Option.bind_eq_bind, Option.bind_some]
  by_cases hopen : ∃ inside, afterName body = '(' :: inside
  · obtain ⟨inside, hinside⟩ := hopen
    rw [hinside, strip?_cons]
    by_cases hclose : ')' ∈ inside
    · obtain ⟨parameter, tail, rfl, hend⟩ := List.eq_append_cons_of_mem hclose
      have hstop : offsetOf? (· == ')') (parameter ++ ')' :: tail) = some (byteSize parameter) :=
        offsetOf?_char hend tail
      have htail := slice?_behind (c := ')') rfl parameter tail
      simp only [Option.bind_some, hstop, slice?_front, htail, limit?_eq, partsOf_around _ hend]
      rfl
    · simp [offsetOf?_char_none hclose, partsOf_unclosed _ hclose]
  · have hbare : ∀ inside, afterName body ≠ '(' :: inside := fun inside h => hopen ⟨inside, h⟩
    simp [strip?_eq_none hbare, partsOf_bare _ hbare, limit?_eq]

/-- The name in a parameter that begins at an offset, and the offset behind the question mark that
ends it, if one does. -/
def half? (parameter : List Char) (start : Nat) : Option (List Char × Option Nat) := do
  let rest ← slice? parameter start (byteSize parameter)
  match offsetOf? (· == '?') rest with
  | some stop => return (← slice? parameter start (start + stop), some (start + stop + 1))
  | none => return (rest, none)

def selector? {F : Type} [Namespace F] (field : String) (parameter : List Char) :
    Option (Except Cause (Selector F)) := do
  let invalid := Cause.invalidSelector field (String.ofList parameter) (Namespace.kind F)
  let (primary, behind) ← half? parameter 0
  match behind with
  | none =>
    if primary.isEmpty then return .error invalid
    else return .ok (.resolve (String.ofList primary) none)
  | some start =>
    let (fallback, behind) ← half? parameter start
    if primary.isEmpty || fallback.isEmpty then return .error invalid
    match behind with
    | none => return .ok (.resolve (String.ofList primary) (some (String.ofList fallback)))
    -- a third name is taken before the selector is refused
    | some start => (fun _ => .error invalid) <$> half? parameter start

theorem half?_last (front : List Char) {name : List Char} (hname : '?' ∉ name) :
    half? (front ++ name) (byteSize front) = some (name, none) := by
  simp only [half?, slice?_back, Option.bind_eq_bind, Option.bind_some, offsetOf?_char_none hname]
  rfl

/-- A further name begins behind the question mark that ends this one. -/
theorem half?_next (front : List Char) {name : List Char} (hname : '?' ∉ name)
    (rest : List Char) :
    half? (front ++ (name ++ '?' :: rest)) (byteSize front)
      = some (name, some (byteSize (front ++ name ++ ['?']))) := by
  have hbehind : byteSize (front ++ name ++ ['?']) = byteSize front + byteSize name + 1 := by
    rw [byteSize_append, byteSize_append]
    rfl
  simp only [half?, slice?_back, Option.bind_eq_bind, Option.bind_some, offsetOf?_char hname,
    slice?_append, Option.pure_def, hbehind]

theorem exists_half? (front rest : List Char) :
    ∃ half, half? (front ++ rest) (byteSize front) = some half := by
  by_cases hmark : '?' ∈ rest
  · obtain ⟨name, more, rfl, hname⟩ := List.eq_append_cons_of_mem hmark
    exact ⟨_, half?_next front hname more⟩
  · exact ⟨_, half?_last front hmark⟩

section

variable {F : Type} [Namespace F] {a b : List Char}

theorem selector?_one (field : String) (ha : '?' ∉ a) :
    selector? (F := F) field a = some (selectorOf field a) := by
  have hfirst : half? a 0 = some (a, none) := half?_last [] ha
  simp only [selector?, hfirst, selectorOf, List.splitOn_eq_singleton ha, Option.bind_eq_bind,
    Option.bind_some]
  cases a with
  | nil => rfl
  | cons c a => rfl

theorem half?_primary (ha : '?' ∉ a) (rest : List Char) :
    half? (a ++ '?' :: rest) 0 = some (a, some (byteSize (a ++ ['?']))) :=
  half?_next [] ha rest

theorem selector?_two (field : String) (ha : '?' ∉ a) (hb : '?' ∉ b) :
    selector? (F := F) field (a ++ '?' :: b) = some (selectorOf field (a ++ '?' :: b)) := by
  have hfirst := half?_primary ha b
  have hsecond : half? (a ++ '?' :: b) (byteSize (a ++ ['?'])) = some (b, none) := by
    simpa using half?_last (a ++ ['?']) hb
  simp only [selector?, hfirst, hsecond, selectorOf, List.splitOn_append_cons_self_of_not_mem ha,
    List.splitOn_eq_singleton hb, Option.bind_eq_bind, Option.bind_some]
  cases a <;> cases b <;> rfl

/-- Behind a second question mark there is a third name, whatever it is. -/
theorem selector?_more (field : String) (ha : '?' ∉ a) (hb : '?' ∉ b) (rest : List Char) :
    selector? (F := F) field (a ++ '?' :: (b ++ '?' :: rest))
      = some (selectorOf field (a ++ '?' :: (b ++ '?' :: rest))) := by
  have hfirst := half?_primary ha (b ++ '?' :: rest)
  have hsecond : half? (a ++ '?' :: (b ++ '?' :: rest)) (byteSize (a ++ ['?']))
      = some (b, some (byteSize (a ++ ['?'] ++ b ++ ['?']))) := by
    simpa using half?_next (a ++ ['?']) hb rest
  obtain ⟨third, hthird⟩ : ∃ third, half? (a ++ '?' :: (b ++ '?' :: rest))
      (byteSize (a ++ ['?'] ++ b ++ ['?'])) = some third := by
    simpa using exists_half? (a ++ ['?'] ++ b ++ ['?']) rest
  obtain ⟨c, more, hmore⟩ := List.exists_cons_of_ne_nil (List.splitOn_ne_nil '?' rest)
  simp only [selector?, hfirst, hsecond, hthird, selectorOf, hmore,
    List.splitOn_append_cons_self_of_not_mem ha, List.splitOn_append_cons_self_of_not_mem hb,
    Option.bind_eq_bind, Option.bind_some]
  split <;> rfl

theorem selector?_eq (field : String) (parameter : List Char) :
    selector? (F := F) field parameter = some (selectorOf field parameter) := by
  by_cases hmark : '?' ∈ parameter
  · obtain ⟨a, rest, rfl, ha⟩ := List.eq_append_cons_of_mem hmark
    by_cases hmark' : '?' ∈ rest
    · obtain ⟨b, rest, rfl, hb⟩ := List.eq_append_cons_of_mem hmark'
      exact selector?_more field ha hb rest
    · exact selector?_two field ha hmark'
  · exact selector?_one field hmark

end

/-! ## A whole body -/

def query? (field : String) (parameter : List Char) : Command → Option (Except Cause Query)
  | .startTime => some (.ok (.startTime (String.ofList parameter)))
  | .int metric => some (.ok (.int metric))
  | .str metric => some (.ok (.str metric))
  | .flag f => some (.ok (.flag f))
  | .header side => (.header side <$> ·) <$> selector? field parameter
  | .trailer => (.trailer <$> ·) <$> selector? field parameter
  | .body side => (.body side <$> ·) <$> selector? field parameter
  | .uri => (.uri <$> ·) <$> selector? field parameter
  | .routerInfo => (.routerInfo <$> ·) <$> selector? field parameter
  | .middleware stage => (.middleware stage <$> ·) <$> selector? field parameter

theorem query?_eq (field : String) (parameter : List Char) (command : Command) :
    query? field parameter command = some (queryOf field parameter command) := by
  cases command <;> simp only [query?, queryOf, selector?_eq, Option.map_eq_map, Option.map_some]

def field? (body : List Char) : Option (Except Cause Instruction) := do
  let field := String.ofList (← name? body)
  match Command.lookup? field with
  | none => return .error (.unknownField field)
  | some command =>
    match ← parts? body with
    | .error cause => return .error cause
    | .ok parts =>
      match checkArity field command.arity parts.parameter with
      | .error cause => return .error cause
      | .ok () =>
        return (⟨.field ·, parts.limit⟩) <$> (← query? field parts.parameter command)

theorem field?_eq (body : List Char) : field? body = some (fieldOf body) := by
  simp only [field?, fieldOf, name?_eq, parts?_eq, query?_eq, Option.bind_eq_bind, Option.bind_some]
  cases Command.lookup? (String.ofList (nameOf body)) with
  | none => rfl
  | some command =>
    cases partsOf (String.ofList (nameOf body)) (afterName body) with
    | error cause => rfl
    | ok parts =>
      simp only [bind, Except.bind]
      cases checkArity (String.ofList (nameOf body)) command.arity parts.parameter with
      | error cause => rfl
      | ok _ => cases queryOf (String.ofList (nameOf body)) parts.parameter command <;> rfl

def body? (body : List Char) : Option (Except Cause Instruction) :=
  if body.isEmpty then some (.ok (.literal "%")) else field? body

theorem body?_eq (body : List Char) : body? body = some (bodyOf body) := by
  unfold body? bodyOf
  split
  · rfl
  · exact field?_eq body

end Compile

end AccessLog
