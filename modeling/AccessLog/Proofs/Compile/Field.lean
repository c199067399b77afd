import AccessLog.Proofs.Compile.Cut
import AccessLog.Proofs.Grammar
import AccessLog.Proofs.Numeral
import Mathlib.Data.List.TakeWhile

/-!
# Reading the body of a field

Each function that takes a field apart is matched here with the relation of the grammar that it
decides: what it answers is what the relation holds of, and it answers whenever there is such a
thing. The last statement puts them together, `fieldOf_eq_ok_iff`: **a body compiles to an
instruction exactly when the grammar says that it means it**.

A reader commits itself: the name ends at the first parenthesis or colon, the parameter at the
first closing parenthesis. A grammar does not, so the half that needs an argument is always the
one from the grammar to the reader, and the argument is always the same: what the grammar allows
on the left of such a character does not contain it.
-/

set_option autoImplicit false

namespace AccessLog

namespace Compile

open Grammar

/-! ## The two cuts -/

/-- Taking characters as long as they are not `stop` takes all that stands before the first
`stop`. -/
theorem takeWhile_ne {front rest : List Char} {stop : Char} (h : stop ∉ front) :
    (front ++ stop :: rest).takeWhile (· != stop) = front := by
  rw [List.takeWhile_append_of_pos]
  · simp
  · intro c hc
    have hne : c ≠ stop := fun heq => h (heq ▸ hc)
    simpa using hne

theorem dropWhile_ne {front rest : List Char} {stop : Char} (h : stop ∉ front) :
    (front ++ stop :: rest).dropWhile (· != stop) = stop :: rest := by
  rw [List.dropWhile_append_of_pos]
  · simp
  · intro c hc
    have hne : c ≠ stop := fun heq => h (heq ▸ hc)
    simpa using hne

/-- What may follow the name of a field: nothing, or something that begins with one of the
characters that end a name. -/
def EndsField (rest : List Char) : Prop := ∀ c ∈ rest.head?, endsName c = true

/-- The name of a field is all that stands before what may follow a name. -/
theorem nameOf_append {name rest : List Char} (hname : ∀ c ∈ name, endsName c = false)
    (hrest : EndsField rest) : nameOf (name ++ rest) = name := by
  unfold nameOf
  rw [List.takeWhile_append_of_pos (fun c hc => by simp [hname c hc])]
  cases rest with
  | nil => simp
  | cons c rest => simp [hrest c rfl]

theorem afterName_append {name rest : List Char} (hname : ∀ c ∈ name, endsName c = false)
    (hrest : EndsField rest) : afterName (name ++ rest) = rest := by
  unfold afterName
  rw [List.dropWhile_append_of_pos (fun c hc => by simp [hname c hc])]
  cases rest with
  | nil => simp
  | cons c rest => simp [hrest c rfl]

/-- Nothing of a body is lost between its name and what follows it. -/
theorem nameOf_append_afterName (body : List Char) : nameOf body ++ afterName body = body :=
  List.takeWhile_append_dropWhile

theorem endsName_of_mem_nameOf {body : List Char} {c : Char} (h : c ∈ nameOf body) :
    endsName c = false := by
  simpa using List.mem_takeWhile_imp h

theorem endsField_afterName (body : List Char) : EndsField (afterName body) := by
  intro c hc
  have hstop := List.head?_dropWhile_not (fun c => !endsName c) body
  unfold afterName at hc
  rw [Option.mem_def.mp hc] at hstop
  simpa using hstop

/-! ## Lengths -/

theorem lengthBound_eq : lengthBound = 2 ^ 64 := rfl

theorem length?_eq_some_iff {digits : List Char} {n : Nat} :
    length? digits = some n ↔
      digits ≠ [] ∧ (∀ c ∈ digits, c.isDigit = true) ∧ Nat.ofDigitChars 10 digits 0 = n ∧
        n < 2 ^ 64 := by
  unfold length?
  rw [Text.natural?_filter_eq_some_iff, lengthBound_eq]

theorem limitOf_eq_ok_iff {field : String} {tail : List Char} {limit : Option Nat} :
    limitOf field tail = .ok limit ↔ Length tail limit := by
  constructor
  · intro h
    unfold limitOf at h
    split at h
    · cases h
      exact .absent
    · split at h
      · rename_i digits n hn
        cases h
        obtain ⟨hne, hdigits, rfl, hbound⟩ := length?_eq_some_iff.mp hn
        exact .digits hne hdigits hbound
      · cases h
    · cases h
  · intro h
    cases h with
    | absent => rfl
    | digits hne hdigits hbound =>
      have hn := length?_eq_some_iff.mpr ⟨hne, hdigits, rfl, hbound⟩
      simp only [limitOf, hn]

/-! ## Brackets

Three equations, one for each way in which what follows a name may begin. -/

theorem partsOf_around {parameter tail : List Char} (field : String) (hend : ')' ∉ parameter) :
    partsOf field ('(' :: (parameter ++ ')' :: tail))
      = (fun limit => ⟨parameter, limit⟩) <$> limitOf field tail := by
  simp only [partsOf, dropWhile_ne hend, takeWhile_ne hend]
  rfl

theorem partsOf_unclosed {inside : List Char} (field : String) (hopen : ')' ∉ inside) :
    partsOf field ('(' :: inside) = .error (.unterminatedParameter field) := by
  have hdrop : inside.dropWhile (· != ')') = [] := by
    rw [List.dropWhile_eq_nil_iff]
    intro c hc
    have hne : c ≠ ')' := fun heq => hopen (heq ▸ hc)
    simpa using hne
  simp only [partsOf, hdrop]

theorem partsOf_bare {rest : List Char} (field : String) (h : ∀ inside, rest ≠ '(' :: inside) :
    partsOf field rest = (fun limit => ⟨[], limit⟩) <$> limitOf field rest := by
  unfold partsOf
  split
  · exact absurd rfl (h _)
  · rfl

/-- What follows a name comes apart as brackets and a length. The hypothesis is what is true of
a body: it lies between two percent signs. -/
theorem partsOf_eq_ok_iff {field : String} {rest : List Char} {parts : Parts}
    (hpercent : '%' ∉ rest) :
    partsOf field rest = .ok parts ↔
      ∃ brackets length, rest = brackets ++ length ∧ Brackets brackets parts.parameter ∧
        Length length parts.limit := by
  constructor
  · intro h
    by_cases hopen : ∃ inside, rest = '(' :: inside
    · obtain ⟨inside, rfl⟩ := hopen
      by_cases hclose : ')' ∈ inside
      · obtain ⟨parameter, tail, rfl, hend⟩ := List.eq_append_cons_of_mem hclose
        rw [partsOf_around field hend] at h
        obtain ⟨limit, hlimit, rfl⟩ := map_eq_ok_iff.mp h
        refine ⟨'(' :: (parameter ++ [')']), tail, by simp, .around ?_ hend,
          limitOf_eq_ok_iff.mp hlimit⟩
        intro hmem
        exact hpercent (by simp [hmem])
      · rw [partsOf_unclosed field hclose] at h
        cases h
    · rw [partsOf_bare field (fun inside heq => hopen ⟨inside, heq⟩)] at h
      obtain ⟨limit, hlimit, rfl⟩ := map_eq_ok_iff.mp h
      exact ⟨[], rest, rfl, .absent, limitOf_eq_ok_iff.mp hlimit⟩
  · rintro ⟨brackets, length, rfl, hbrackets, hlength⟩
    obtain ⟨parameter, limit⟩ := parts
    have hlimit : limitOf field length = .ok limit := limitOf_eq_ok_iff.mpr hlength
    cases hbrackets with
    | absent =>
      rw [List.nil_append, partsOf_bare field hlength.ne_paren]
      exact map_eq_ok_iff.mpr ⟨limit, hlimit, rfl⟩
    | around _ hend =>
      have hshape : '(' :: (parameter ++ [')']) ++ length
          = '(' :: (parameter ++ ')' :: length) := by simp
      rw [hshape, partsOf_around field hend]
      exact map_eq_ok_iff.mpr ⟨limit, hlimit, rfl⟩

/-! ## Parameters -/

theorem checkArity_eq_ok_iff {field : String} {arity : Arity} {parameter : List Char} :
    checkArity field arity parameter = .ok () ↔ arity.Admits parameter := by
  cases arity <;> cases parameter <;> simp [checkArity, Arity.Admits]

/-- What `selectorOf` does with a parameter that holds no question mark. -/
theorem selectorOf_one {F : Type} [Namespace F] {a : List Char} (field : String)
    (hne : a ≠ []) (hplain : '?' ∉ a) :
    selectorOf (F := F) field a = .ok (.resolve (String.ofList a) none) := by
  obtain ⟨c, a, rfl⟩ := List.exists_cons_of_ne_nil hne
  simp only [selectorOf, List.splitOn_eq_singleton hplain]

/-- And with one that holds a single one, between two names. -/
theorem selectorOf_two {F : Type} [Namespace F] {a b : List Char} (field : String)
    (hne : a ≠ []) (hplain : '?' ∉ a) (hne' : b ≠ []) (hplain' : '?' ∉ b) :
    selectorOf (F := F) field (a ++ '?' :: b)
      = .ok (.resolve (String.ofList a) (some (String.ofList b))) := by
  obtain ⟨c, a, rfl⟩ := List.exists_cons_of_ne_nil hne
  obtain ⟨d, b, rfl⟩ := List.exists_cons_of_ne_nil hne'
  simp only [selectorOf, List.splitOn_append_cons_self_of_not_mem hplain,
    List.splitOn_eq_singleton hplain']

/-- Any other parameter is no selector: a name is missing, or there is a second question mark. -/
theorem shape_of_selectorOf {F : Type} [Namespace F] {field : String} {parameter : List Char}
    {selector : Selector F} (h : selectorOf field parameter = .ok selector) :
    (parameter ≠ [] ∧ '?' ∉ parameter) ∨
      ∃ a b, parameter = a ++ '?' :: b ∧ a ≠ [] ∧ '?' ∉ a ∧ b ≠ [] ∧ '?' ∉ b := by
  unfold selectorOf at h
  by_cases hmark : '?' ∈ parameter
  · obtain ⟨a, after, rfl, ha⟩ := List.eq_append_cons_of_mem hmark
    rw [List.splitOn_append_cons_self_of_not_mem ha] at h
    by_cases hmark' : '?' ∈ after
    · obtain ⟨b, rest, rfl, hb⟩ := List.eq_append_cons_of_mem hmark'
      rw [List.splitOn_append_cons_self_of_not_mem hb] at h
      -- three parts at least, so neither of the two good shapes
      cases hrest : rest.splitOn '?' with
      | nil => exact absurd hrest (List.splitOn_ne_nil '?' rest)
      | cons third more =>
        rw [hrest] at h
        split at h
        · rename_i heq
          cases heq
        · rename_i heq
          cases heq
        · cases h
    · rw [List.splitOn_eq_singleton hmark'] at h
      split at h
      · rename_i heq
        cases heq
      · rename_i heq
        cases heq
        exact .inr ⟨_, _, rfl, by simp, ha, by simp, hmark'⟩
      · cases h
  · rw [List.splitOn_eq_singleton hmark] at h
    cases parameter with
    | nil => cases h
    | cons c a => exact .inl ⟨by simp, hmark⟩

theorem selectorOf_eq_ok_iff {F : Type} [Namespace F] [Namespace.Lawful F] {field : String}
    {parameter : List Char} {selector : Selector F} :
    selectorOf field parameter = .ok selector ↔ Names parameter selector := by
  constructor
  · intro h
    rcases shape_of_selectorOf h with ⟨hne, hplain⟩ | ⟨a, b, rfl, hne, hplain, hne', hplain'⟩
    · rw [selectorOf_one field hne hplain] at h
      cases h
      exact .one hne hplain (FieldRef.resolve_eq_iff.mp rfl)
    · rw [selectorOf_two field hne hplain hne' hplain'] at h
      cases h
      exact .two hne hplain (FieldRef.resolve_eq_iff.mp rfl) hne' hplain'
        (FieldRef.resolve_eq_iff.mp rfl)
  · intro h
    cases h with
    | one hne hplain href =>
      rw [selectorOf_one field hne hplain, Selector.resolve, FieldRef.resolve_eq_iff.mpr href]
      rfl
    | two hne hplain href hne' hplain' href' =>
      rw [selectorOf_two field hne hplain hne' hplain', Selector.resolve,
        FieldRef.resolve_eq_iff.mpr href, Option.map_some, FieldRef.resolve_eq_iff.mpr href']

theorem queryOf_eq_ok_iff {field : String} {parameter : List Char} {command : Command}
    {query : Query} :
    queryOf field parameter command = .ok query ↔ Asks command parameter query := by
  constructor
  · intro h
    cases command with
    | startTime =>
      cases h
      exact .startTime parameter
    | int metric =>
      cases h
      exact .int metric parameter
    | str metric =>
      cases h
      exact .str metric parameter
    | flag f =>
      cases h
      exact .flag f parameter
    | header side =>
      obtain ⟨selector, hselector, rfl⟩ := map_eq_ok_iff.mp h
      exact .header side (selectorOf_eq_ok_iff.mp hselector)
    | trailer =>
      obtain ⟨selector, hselector, rfl⟩ := map_eq_ok_iff.mp h
      exact .trailer (selectorOf_eq_ok_iff.mp hselector)
    | body side =>
      obtain ⟨selector, hselector, rfl⟩ := map_eq_ok_iff.mp h
      exact .body side (selectorOf_eq_ok_iff.mp hselector)
    | uri =>
      obtain ⟨selector, hselector, rfl⟩ := map_eq_ok_iff.mp h
      exact .uri (selectorOf_eq_ok_iff.mp hselector)
    | routerInfo =>
      obtain ⟨selector, hselector, rfl⟩ := map_eq_ok_iff.mp h
      exact .routerInfo (selectorOf_eq_ok_iff.mp hselector)
    | middleware stage =>
      obtain ⟨selector, hselector, rfl⟩ := map_eq_ok_iff.mp h
      exact .middleware stage (selectorOf_eq_ok_iff.mp hselector)
  · intro h
    cases h with
    | startTime pattern => rfl
    | int metric parameter => rfl
    | str metric parameter => rfl
    | flag f parameter => rfl
    | header side hnames | trailer hnames | body side hnames | uri hnames | routerInfo hnames
    | middleware stage hnames =>
      exact map_eq_ok_iff.mpr ⟨_, selectorOf_eq_ok_iff.mpr hnames, rfl⟩

/-! ## A whole body -/

theorem endsName_of_mem_name {command : Command} {c : Char} (h : c ∈ command.name.toList) :
    endsName c = false := by
  obtain ⟨-, hparen, hcolon, -⟩ := command.plain_name
  have hc : c ≠ '(' := fun heq => hparen (heq ▸ h)
  have hc' : c ≠ ':' := fun heq => hcolon (heq ▸ h)
  simp [endsName, hc, hc']

theorem endsField_append {brackets parameter length : List Char} {limit : Option Nat}
    (hbrackets : Brackets brackets parameter) (hlength : Length length limit) :
    EndsField (brackets ++ length) := by
  intro c hc
  cases hbrackets with
  | absent =>
    cases hlength with
    | absent => cases hc
    | digits _ _ _ =>
      cases hc
      decide
  | around _ _ =>
    cases hc
    decide

/-- **A body compiles to an instruction exactly when it means it.** -/
theorem fieldOf_eq_ok_iff {body : List Char} {i : Instruction} (hpercent : '%' ∉ body) :
    fieldOf body = .ok i ↔ Field body i := by
  constructor
  · intro h
    simp only [fieldOf] at h
    split at h
    · cases h
    · rename_i command hcommand
      obtain ⟨parts, hparts, h⟩ := bind_eq_ok_iff.mp h
      obtain ⟨_, harity, h⟩ := bind_eq_ok_iff.mp h
      obtain ⟨query, hquery, h⟩ := bind_eq_ok_iff.mp h
      rw [pure_eq_ok_iff] at h
      subst h
      have hname : nameOf body = command.name.toList := by
        rw [Command.lookup?_eq_some_iff.mp hcommand, String.toList_ofList]
      have hafter : '%' ∉ afterName body := fun hmem =>
        hpercent ((List.dropWhile_sublist _).mem hmem)
      obtain ⟨brackets, length, hrest, hbrackets, hlength⟩ := (partsOf_eq_ok_iff hafter).mp hparts
      rw [← nameOf_append_afterName body, hname, hrest]
      exact .mk command hbrackets hlength (checkArity_eq_ok_iff.mp harity)
        (queryOf_eq_ok_iff.mp hquery)
  · intro h
    cases h with
    | @mk command brackets parameter length limit query hbrackets hlength harity hasks =>
      have hname : ∀ c ∈ command.name.toList, endsName c = false := fun c =>
        endsName_of_mem_name
      have hrest := endsField_append hbrackets hlength
      have hcommand : Command.lookup? (String.ofList command.name.toList) = some command := by
        rw [Command.lookup?_eq_some_iff, String.ofList_toList]
      have hparts : partsOf (String.ofList command.name.toList) (brackets ++ length)
          = .ok ⟨parameter, limit⟩ := by
        rw [partsOf_eq_ok_iff (fun hmem => hpercent (List.mem_append_right _ hmem))]
        exact ⟨brackets, length, rfl, hbrackets, hlength⟩
      unfold fieldOf
      rw [nameOf_append hname hrest, afterName_append hname hrest]
      simp only [hcommand, hparts]
      refine bind_eq_ok_iff.mpr ⟨_, rfl, ?_⟩
      refine bind_eq_ok_iff.mpr ⟨(), checkArity_eq_ok_iff.mpr harity, ?_⟩
      refine bind_eq_ok_iff.mpr ⟨query, queryOf_eq_ok_iff.mpr hasks, rfl⟩

end Compile

end AccessLog
