import AccessLog.Proofs.Compile.Acceptance
import Mathlib.Algebra.Ring.Parity

/-!
# Where a format breaks

A format that does not compile breaks at one percent sign. In front of it stands a format that
compiles, behind it something that is wrong (`Breaks`): either there is no second percent sign,
or what stands before the second one is no body. **The scan fails with an error exactly when the
format comes apart like that, at the offset and for the cause of the error**
(`scan_eq_error_iff`).

So an error is a statement about two parts of the format, and what is further behind has no share
in it: a body that is wrong stays wrong whatever follows its second percent sign, and is wrong for
the same cause when the format begins with it. Which percent signs open a field is a matter of
counting them, since a format that compiles has an even number (`Grammar.Format.even_count`).
-/

set_option autoImplicit false

namespace AccessLog

/-- The field that a cause is about. A percent sign without a partner opens none. -/
def Cause.field? : Cause → Option String
  | .unterminated => none
  | .unknownField field | .unexpectedParameter field | .missingParameter field
  | .invalidLength field _ | .unterminatedParameter field | .trailingCharacters field _
  | .invalidSelector field _ _ => some field

namespace Grammar

theorem Piece.even_count {p : List Char} {i : Instruction} (h : Piece p i) :
    Even (p.count '%') := by
  cases h with
  | run hrun =>
    rw [List.count_eq_zero.mpr hrun.2]
    exact .zero
  | percent => exact even_two
  | field hfield =>
    rw [List.count_cons_self, List.count_append, List.count_eq_zero.mpr hfield.no_percent]
    exact even_two

theorem Format.even_count {cs : List Char} {instructions : List Instruction}
    (h : Format cs instructions) : Even (cs.count '%') := by
  obtain ⟨pieces, rfl, hpieces, -⟩ := h
  induction hpieces with
  | nil => exact .zero
  | cons hpiece _ ih =>
    rw [List.flatten_cons, List.count_append]
    exact hpiece.even_count.add ih

end Grammar

namespace Compile

open Grammar

/-! ## What is wrong with a body

Each reader is handed the name of the field and puts it into every error of its own. -/

theorem field_of_limitOf {field : String} {tail : List Char} {cause : Cause}
    (h : limitOf field tail = .error cause) : cause.field? = some field := by
  unfold limitOf at h
  split at h
  · cases h
  · split at h
    · cases h
    · cases h
      rfl
  · cases h
    rfl

theorem field_of_partsOf {field : String} {rest : List Char} {cause : Cause}
    (h : partsOf field rest = .error cause) : cause.field? = some field := by
  by_cases hopen : ∃ inside, rest = '(' :: inside
  · obtain ⟨inside, rfl⟩ := hopen
    by_cases hclose : ')' ∈ inside
    · obtain ⟨parameter, tail, rfl, hend⟩ := List.eq_append_cons_of_mem hclose
      rw [partsOf_around field hend] at h
      exact field_of_limitOf (map_eq_error_iff.mp h)
    · rw [partsOf_unclosed field hclose] at h
      cases h
      rfl
  · rw [partsOf_bare field (fun inside heq => hopen ⟨inside, heq⟩)] at h
    exact field_of_limitOf (map_eq_error_iff.mp h)

theorem field_of_checkArity {field : String} {arity : Arity} {parameter : List Char}
    {cause : Cause} (h : checkArity field arity parameter = .error cause) :
    cause.field? = some field := by
  unfold checkArity at h
  split at h
  · cases h
    rfl
  · cases h
    rfl
  · cases h

theorem field_of_selectorOf {F : Type} [Namespace F] {field : String} {parameter : List Char}
    {cause : Cause} (h : selectorOf (F := F) field parameter = .error cause) :
    cause.field? = some field := by
  unfold selectorOf at h
  split at h
  · cases h
  · cases h
  · cases h
    rfl

theorem field_of_queryOf {field : String} {parameter : List Char} {command : Command}
    {cause : Cause} (h : queryOf field parameter command = .error cause) :
    cause.field? = some field := by
  cases command with
  | startTime | int _ | str _ | flag _ => cases h
  | header _ | trailer | body _ | uri | routerInfo | middleware _ =>
    exact field_of_selectorOf (map_eq_error_iff.mp h)

/-- **An error is about the field that is judged**, by the name that the body begins with. -/
theorem field_of_fieldOf {body : List Char} {cause : Cause} (h : fieldOf body = .error cause) :
    cause.field? = some (String.ofList (nameOf body)) := by
  simp only [fieldOf] at h
  split at h
  · cases h
    rfl
  · rcases bind_eq_error_iff.mp h with hparts | ⟨parts, -, h⟩
    · exact field_of_partsOf hparts
    rcases bind_eq_error_iff.mp h with harity | ⟨_, -, h⟩
    · exact field_of_checkArity harity
    rcases bind_eq_error_iff.mp h with hquery | ⟨query, -, h⟩
    · exact field_of_queryOf hquery
    · cases h

/-- A body lies between two percent signs, so it is never the cause that one is missing. -/
theorem bodyOf_ne_unterminated (body : List Char) : bodyOf body ≠ .error .unterminated := by
  intro h
  unfold bodyOf at h
  split at h
  · cases h
  · have hfield := field_of_fieldOf h
    cases hfield

/-! ## What is wrong at a percent sign -/

/-- What is wrong behind a percent sign that opens a field: there is no second one, or what
stands before the second one is no body. -/
inductive Breaks : List Char → Cause → Prop where
  | unterminated {after : List Char} (hafter : '%' ∉ after) : Breaks after .unterminated
  | field {body rest : List Char} {cause : Cause} (hbody : '%' ∉ body)
    (hcause : bodyOf body = .error cause) : Breaks (body ++ '%' :: rest) cause

theorem Breaks.no_percent {after : List Char} (h : Breaks after .unterminated) :
    '%' ∉ after := by
  generalize hcause : Cause.unterminated = cause at h
  cases h with
  | unterminated hafter => exact hafter
  | @field body _ _ _ h =>
    subst hcause
    exact absurd h (bodyOf_ne_unterminated body)

theorem Breaks.exists_body {after : List Char} {cause : Cause} (h : Breaks after cause)
    (hcause : cause ≠ .unterminated) :
    ∃ body rest, after = body ++ '%' :: rest ∧ '%' ∉ body ∧ bodyOf body = .error cause := by
  cases h with
  | unterminated _ => exact absurd rfl hcause
  | field hbody h => exact ⟨_, _, rfl, hbody, h⟩

/-! ## What stands before it

A percent sign ends a run of text, as the end of the format does. So a format may be broken off
before one, or taken up again with one, and is cut as before. -/

theorem EndsRun.front {before after : List Char} (h : EndsRun (before ++ '%' :: after)) :
    EndsRun before := by
  cases before with
  | nil => exact .inl rfl
  | cons c before =>
    rcases h with hnil | ⟨more, heq⟩
    · cases hnil
    · cases heq
      exact .inr ⟨before, rfl⟩

theorem EndsRun.append_percent {before : List Char} (h : EndsRun before) (after : List Char) :
    EndsRun (before ++ '%' :: after) := by
  rcases h with rfl | ⟨more, rfl⟩
  · exact .inr ⟨after, rfl⟩
  · exact .inr ⟨more ++ '%' :: after, rfl⟩

/-- **Behind a format that compiles, the scan comes to a percent sign with nothing left over**, and
goes on as it would begin there. -/
theorem scan_append_percent {before : List Char} (after : List Char) :
    ∀ {start : Nat} {instructions : List Instruction}, scan start before = .ok instructions →
      scan start (before ++ '%' :: after)
        = (instructions ++ ·) <$> scan (start + Text.byteSize before) ('%' :: after) := by
  -- on the cuts of what stands before, since each of them is passed in the same way
  induction cut before with
  | done =>
    intro start instructions hscan
    cases hscan
    exact (id_map _).symm
  | @run run rest hne hrun hrest _ ih =>
    intro start instructions hscan
    rw [scan_run start hrun hrest] at hscan
    obtain ⟨more, hmore, rfl⟩ := map_eq_ok_iff.mp hscan
    rw [List.append_assoc, scan_run start hrun (hrest.append_percent after), ih hmore,
      Text.byteSize_append, ← Nat.add_assoc, Functor.map_map]
    simp only [List.append_assoc]
  | unterminated hbody =>
    intro start instructions hscan
    rw [scan_unterminated start hbody] at hscan
    cases hscan
  | @field body rest hbody _ ih =>
    intro start instructions hscan
    rw [scan_field start hbody] at hscan
    obtain ⟨i, hi, hscan⟩ := bind_eq_ok_iff.mp hscan
    obtain ⟨more, hmore, hscan⟩ := bind_eq_ok_iff.mp hscan
    cases pure_eq_ok_iff.mp hscan
    have hshape : '%' :: (body ++ '%' :: rest) ++ '%' :: after
        = '%' :: (body ++ '%' :: (rest ++ '%' :: after)) := by simp
    have hplace : start + Text.byteSize ('%' :: (body ++ '%' :: rest))
        = start + Text.byteSize body + 2 + Text.byteSize rest := by
      rw [byteSize_field]
      omega
    rw [hshape, hplace, scan_field start hbody, hi, ih hmore]
    cases scan (start + Text.byteSize body + 2 + Text.byteSize rest) ('%' :: after) with
    | ok instructions => rfl
    | error e => rfl

/-- So it fails there if something is wrong. -/
theorem scan_of_breaks {before after : List Char} {cause : Cause} (h : Breaks after cause)
    {start : Nat} {instructions : List Instruction} (hbefore : scan start before = .ok instructions) :
    scan start (before ++ '%' :: after) = .error ⟨cause, start + Text.byteSize before⟩ := by
  rw [scan_append_percent after hbefore, map_eq_error_iff]
  cases h with
  | unterminated hafter => exact scan_unterminated _ hafter
  | field hbody hcause =>
    rw [scan_field _ hbody]
    exact bind_eq_error_iff.mpr (.inl (mapError_eq_error_iff.mpr ⟨cause, hcause, rfl⟩))

theorem breaks_of_scan {cs : List Char} {e : CompileError} :
    ∀ {start : Nat}, scan start cs = .error e →
      ∃ before after, cs = before ++ '%' :: after ∧
        (∃ instructions, scan start before = .ok instructions) ∧
        Breaks after e.cause ∧ start + Text.byteSize before = e.position := by
  -- a cut that is passed goes in front of what the rest of the format comes apart into
  induction cut cs with
  | done =>
    intro start h
    cases h
  | @run run rest hne hrun hrest _ ih =>
    intro start h
    rw [scan_run start hrun hrest, map_eq_error_iff] at h
    obtain ⟨before, after, rfl, ⟨instructions, hbefore⟩, hbreaks, hplace⟩ := ih h
    refine ⟨run ++ before, after, by simp, ⟨textOf run ++ instructions, ?_⟩, hbreaks, ?_⟩
    · rw [scan_run start hrun hrest.front, map_eq_ok_iff]
      exact ⟨instructions, hbefore, rfl⟩
    · rw [Text.byteSize_append, ← Nat.add_assoc, hplace]
  | unterminated hbody =>
    intro start h
    rw [scan_unterminated start hbody] at h
    cases h
    exact ⟨[], _, rfl, ⟨[], scan_nil start⟩, .unterminated hbody, rfl⟩
  | @field body rest hbody _ ih =>
    intro start h
    rw [scan_field start hbody] at h
    rcases bind_eq_error_iff.mp h with hfail | ⟨i, hi, h⟩
    · obtain ⟨cause, hcause, rfl⟩ := mapError_eq_error_iff.mp hfail
      exact ⟨[], _, rfl, ⟨[], scan_nil start⟩, .field hbody hcause, rfl⟩
    rcases bind_eq_error_iff.mp h with hfail | ⟨more, -, h⟩
    · obtain ⟨before, after, rfl, ⟨instructions, hbefore⟩, hbreaks, hplace⟩ := ih hfail
      refine ⟨'%' :: (body ++ '%' :: before), after, by simp, ⟨i :: instructions, ?_⟩, hbreaks, ?_⟩
      · rw [scan_field start hbody]
        exact bind_eq_ok_iff.mpr ⟨i, hi, bind_eq_ok_iff.mpr ⟨instructions, hbefore, rfl⟩⟩
      · rw [byteSize_field]
        omega
    · cases h

/-- **A scan fails exactly at a percent sign that follows a format that compiles and is followed
by what is wrong.** -/
theorem scan_eq_error_iff {start : Nat} {cs : List Char} {e : CompileError} :
    scan start cs = .error e ↔
      ∃ before after, cs = before ++ '%' :: after ∧
        (∃ instructions, scan start before = .ok instructions) ∧
        Breaks after e.cause ∧ start + Text.byteSize before = e.position := by
  constructor
  · exact breaks_of_scan
  · rintro ⟨before, after, rfl, ⟨instructions, hbefore⟩, hbreaks, hplace⟩
    rw [scan_of_breaks hbreaks hbefore, hplace]

/-! ## Counting percent signs -/

/-- A format that compiles may be broken off before a percent sign that opens a field, which is
one with an even number of others before it. -/
theorem scan_front_of_even {front after : List Char} {start : Nat}
    {instructions : List Instruction} (hfront : Even (front.count '%'))
    (h : scan start (front ++ '%' :: after) = .ok instructions) :
    ∃ more, scan start front = .ok more := by
  cases hfail : scan start front with
  | ok more => exact ⟨more, rfl⟩
  | error e =>
    obtain ⟨before, behind, rfl, ⟨more, hbefore⟩, hbreaks, -⟩ := scan_eq_error_iff.mp hfail
    by_cases hcause : e.cause = .unterminated
    · -- the sign at which it fails would be the last one, and the number of all of them odd
      have hbehind : behind.count '%' = 0 := List.count_eq_zero.mpr (hcause ▸ hbreaks).no_percent
      have heven := (scan_eq_ok_iff.mp hbefore).even_count
      rw [List.count_append, List.count_cons_self, hbehind, Nat.even_add_one] at hfront
      exact absurd heven hfront
    · -- a wrong body stays wrong when the rest of the format is put back
      obtain ⟨body, rest, rfl, hbody, hwrong⟩ := hbreaks.exists_body hcause
      rw [List.append_assoc, List.cons_append, List.append_assoc, List.cons_append,
        scan_of_breaks (.field hbody hwrong) hbefore] at h
      cases h

/-- A field with an even number of percent signs before it stands on its own: what is before it,
its body and what is behind it compile by themselves. -/
theorem scan_field_of_even {front body rest : List Char} {start : Nat}
    {instructions : List Instruction} (hfront : Even (front.count '%')) (hbody : '%' ∉ body) :
    scan start (front ++ '%' :: (body ++ '%' :: rest)) = .ok instructions ↔
      ∃ before i behind, Format front before ∧ bodyOf body = .ok i ∧ Format rest behind ∧
        before ++ i :: behind = instructions := by
  constructor
  · intro h
    obtain ⟨before, hbefore⟩ := scan_front_of_even hfront h
    rw [scan_append_percent _ hbefore, scan_field _ hbody] at h
    obtain ⟨field, hfield, rfl⟩ := map_eq_ok_iff.mp h
    obtain ⟨i, hi, hfield⟩ := bind_eq_ok_iff.mp hfield
    obtain ⟨behind, hbehind, hfield⟩ := bind_eq_ok_iff.mp hfield
    cases pure_eq_ok_iff.mp hfield
    exact ⟨before, i, behind, scan_eq_ok_iff.mp hbefore, mapError_eq_ok_iff.mp hi,
      scan_eq_ok_iff.mp hbehind, rfl⟩
  · rintro ⟨before, i, behind, hbefore, hi, hbehind, rfl⟩
    rw [scan_append_percent _ (scan_eq_ok_iff.mpr hbefore), scan_field _ hbody, hi,
      map_eq_ok_iff]
    exact ⟨i :: behind, bind_eq_ok_iff.mpr ⟨i, rfl, bind_eq_ok_iff.mpr
      ⟨behind, scan_eq_ok_iff.mpr hbehind, rfl⟩⟩, rfl⟩

/-! ## Formats as texts -/

theorem compile_eq_error_iff {t : String} {e : CompileError} :
    compile t = .error e ↔ scan 0 t.toList = .error e := by
  unfold compile scan
  rw [bind_eq_error_iff]
  constructor
  · rintro (h | ⟨instructions, -, h⟩)
    · exact h
    · cases h
  · exact .inl

theorem exists_compile_iff {t : String} :
    (∃ p, compile t = .ok p) ↔ ∃ instructions, scan 0 t.toList = .ok instructions := by
  constructor
  · rintro ⟨p, hp⟩
    exact ⟨p.instructions, (compile_eq_ok_iff.mp hp).2⟩
  · rintro ⟨instructions, h⟩
    exact ⟨⟨t, instructions⟩, compile_eq_ok_iff.mpr ⟨rfl, h⟩⟩

theorem exists_breaks {t : String} {e : CompileError} (h : compile t = .error e) :
    ∃ before after : String, t = before ++ "%" ++ after ∧ (∃ p, compile before = .ok p) ∧
      Breaks after.toList e.cause ∧ before.utf8ByteSize = e.position := by
  obtain ⟨before, after, hcs, hbefore, hbreaks, hplace⟩ :=
    scan_eq_error_iff.mp (compile_eq_error_iff.mp h)
  refine ⟨String.ofList before, String.ofList after, ?_, ?_, ?_, ?_⟩
  · rw [← String.toList_inj, hcs]
    simp
  · rw [exists_compile_iff, String.toList_ofList]
    exact hbefore
  · rw [String.toList_ofList]
    exact hbreaks
  · rw [← Text.byteSize_toList, String.toList_ofList, ← hplace, Nat.zero_add]

/-- What stands before the place at which a format breaks only moves that place. -/
theorem compile_of_breaks {before after : String} {cause : Cause}
    (hbefore : ∃ p, compile before = .ok p) (h : Breaks after.toList cause) :
    compile (before ++ "%" ++ after) = .error ⟨cause, before.utf8ByteSize⟩ := by
  obtain ⟨instructions, hscan⟩ := exists_compile_iff.mp hbefore
  have hchars : (before ++ "%" ++ after).toList = before.toList ++ '%' :: after.toList := by
    simp
  rw [compile_eq_error_iff, hchars, scan_of_breaks h hscan, Nat.zero_add, Text.byteSize_toList]

/-- What stands behind it does not matter beyond the percent sign that ends a wrong body. -/
theorem Breaks.exists_closed {after : String} {cause : Cause} (h : Breaks after.toList cause)
    (hcause : cause ≠ .unterminated) :
    ∃ body rest : String, after = body ++ "%" ++ rest ∧ '%' ∉ body.toList ∧
      ∀ u : String, Breaks (body ++ "%" ++ u).toList cause := by
  obtain ⟨body, rest, hafter, hbody, hwrong⟩ := h.exists_body hcause
  refine ⟨String.ofList body, String.ofList rest, ?_, ?_, ?_⟩
  · rw [← String.toList_inj, hafter]
    simp
  · rwa [String.toList_ofList]
  · intro u
    have hchars : (String.ofList body ++ "%" ++ u).toList = body ++ '%' :: u.toList := by simp
    rw [hchars]
    exact .field hbody hwrong

theorem compile_field_of_even {front body rest : String}
    (h : ∃ p, compile (front ++ "%" ++ body ++ "%" ++ rest) = .ok p)
    (hfront : Even (front.toList.count '%')) (hbody : '%' ∉ body.toList) :
    ∃ p, compile ("%" ++ body ++ "%") = .ok p := by
  obtain ⟨instructions, hscan⟩ := exists_compile_iff.mp h
  have hchars : (front ++ "%" ++ body ++ "%" ++ rest).toList
      = front.toList ++ '%' :: (body.toList ++ '%' :: rest.toList) := by simp
  rw [hchars] at hscan
  obtain ⟨_, i, _, -, hi, -, -⟩ := (scan_field_of_even hfront hbody).mp hscan
  have hpiece := (bodyOf_eq_ok_iff hbody).mp hi
  refine ⟨⟨_, [i]⟩, compile_eq_ok_iff_format.mpr ⟨rfl, ?_⟩⟩
  exact ⟨['%' :: (body.toList ++ ['%'])], by simp, .cons hpiece .nil, .singleton _⟩

theorem even_count_of_compile {t : String} (h : ∃ p, compile t = .ok p) :
    Even (t.toList.count '%') := by
  obtain ⟨p, hp⟩ := h
  exact (compile_eq_ok_iff_format.mp hp).2.even_count

end Compile

/-- **Errors are located and final.** The error of a format stands at a percent sign, behind a
format that compiles and whose fields therefore all do; the format fails alike when it begins
there. Unless the percent sign has no partner, which is when their number is odd, nothing behind
the partner has a share in the error. -/
theorem compile_error_located {t : String} {e : CompileError} (h : compile t = .error e) :
    ∃ before after : String, t = before ++ "%" ++ after ∧ before.utf8ByteSize = e.position ∧
      (∃ p, compile before = .ok p) ∧ Even (before.toList.count '%') ∧
      (∀ front body rest : String, before = front ++ "%" ++ body ++ "%" ++ rest →
        Even (front.toList.count '%') → '%' ∉ body.toList →
        ∃ p, compile ("%" ++ body ++ "%") = .ok p) ∧
      compile ("%" ++ after) = .error ⟨e.cause, 0⟩ ∧
      (e.cause ≠ .unterminated → ∃ body rest : String, after = body ++ "%" ++ rest ∧
        '%' ∉ body.toList ∧ ∀ u : String, compile (before ++ "%" ++ body ++ "%" ++ u) = .error e) ∧
      (e.cause = .unterminated → '%' ∉ after.toList ∧ Odd (t.toList.count '%')) ∧
      ∀ p : Program, compile t ≠ .ok p := by
  obtain ⟨before, after, rfl, hbefore, hbreaks, hplace⟩ := Compile.exists_breaks h
  have heven := Compile.even_count_of_compile hbefore
  refine ⟨before, after, rfl, hplace, hbefore, heven, ?_, ?_, ?_, ?_, ?_⟩
  · rintro front body rest rfl hfront hbody
    exact Compile.compile_field_of_even hbefore hfront hbody
  · have hempty : ∃ p, compile "" = .ok p := ⟨_, rfl⟩
    have hfirst := Compile.compile_of_breaks hempty hbreaks
    rwa [String.empty_append, String.utf8ByteSize_empty] at hfirst
  · intro hcause
    obtain ⟨body, rest, rfl, hbody, hfinal⟩ := hbreaks.exists_closed hcause
    refine ⟨body, rest, rfl, hbody, fun u => ?_⟩
    have hu := Compile.compile_of_breaks hbefore (hfinal u)
    rwa [hplace, ← String.append_assoc, ← String.append_assoc] at hu
  · intro hcause
    have hafter : '%' ∉ after.toList := (hcause ▸ hbreaks).no_percent
    have hcount : (before ++ "%" ++ after).toList.count '%' = before.toList.count '%' + 1 := by
      have hzero := List.count_eq_zero.mpr hafter
      simp [List.count_append, hzero]
    rw [hcount]
    exact ⟨hafter, heven.add_one⟩
  · intro p hp
    rw [h] at hp
    cases hp

/-- A wrong name behind a wide character and an escaped percent sign: the place counts bytes, and
the second wrong name is not reported. Then a percent sign too many. -/
theorem compile_error_located_nope :
    compile "é%%%NOPE%%WRONG%" = .error ⟨.unknownField "NOPE", 4⟩ ∧
    compile "%PROTOCOL% %" = .error ⟨.unterminated, 11⟩ ∧
    (∃ before body : String, before.utf8ByteSize = 4 ∧ (∃ p, compile before = .ok p) ∧
      ∀ u : String, compile (before ++ "%" ++ body ++ "%" ++ u)
        = .error ⟨.unknownField "NOPE", 4⟩) ∧
    ∃ after : String, compile ("%" ++ after) = .error ⟨.unterminated, 0⟩ ∧ '%' ∉ after.toList := by
  have hnope : compile "é%%%NOPE%%WRONG%" = .error ⟨.unknownField "NOPE", 4⟩ := rfl
  have hopen : compile "%PROTOCOL% %" = .error ⟨.unterminated, 11⟩ := rfl
  obtain ⟨before, _, -, hplace, hbefore, -, -, -, hfinal, -, -⟩ := compile_error_located hnope
  obtain ⟨body, _, -, -, hfinal⟩ := hfinal (by decide)
  obtain ⟨_, after, -, -, -, -, -, hfirst, -, hlast, -⟩ := compile_error_located hopen
  exact ⟨hnope, hopen, ⟨before, body, hplace, hbefore, hfinal⟩, after, hfirst, (hlast rfl).1⟩

end AccessLog
