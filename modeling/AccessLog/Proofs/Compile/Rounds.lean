import AccessLog.Proofs.Compile.Cut
import AccessLog.Proofs.Compile.Slices

/-!
# Compiling by offsets

`compile` splits a format at its percent signs before it looks at any part. A reader of bytes goes
through the format once instead, from a byte offset to the next: a round takes the slice from its
offset to the end, looks for a percent sign in it, takes the slice behind that one to the end, looks
for the next percent sign, takes the slice between the two, and ends behind the second. The offsets
are sums of what was found in different slices and of ones for the percent signs.

`round?` is one round and `run?` is the loop. A round moves forward whatever it finds
(`position_lt_of_round?`), which is why the loop ends. **The loop only ever stands at a boundary**
(`Visits.isBoundary`), from a boundary a round takes all its slices (`round?_of_isBoundary`), and so
the loop has a result: it is that of `compile` (`compile?_eq`).
-/

set_option autoImplicit false

namespace AccessLog

namespace Compile

open Text

variable {format run body : List Char} {done : List Instruction}

/-! ## Rounds -/

/-- Where the loop stands, and what it has compiled so far. -/
structure Progress where
  position : Nat
  instructions : List Instruction

/-- How a round ends that finds nothing wrong. -/
inductive Round where
  /-- There was no further percent sign, and these are all instructions. -/
  | last (instructions : List Instruction)
  | next (progress : Progress)

/-- The instructions for what stands before a percent sign at an offset. -/
def text? (remaining : List Char) (opening : Nat) : Option (List Instruction) :=
  if 0 < opening then
    (fun run => [.literal (String.ofList run)]) <$> slice? remaining 0 opening
  else some []

/-- The instruction for what begins with a percent sign at an offset, and the offset behind it. -/
def enclosed? (format : List Char) (opening : Nat) :
    Option (Except CompileError (Instruction × Nat)) := do
  let start := opening + 1
  let behind ← slice? format start (byteSize format)
  match offsetOf? (· == '%') behind with
  | none => return .error ⟨.unterminated, opening⟩
  | some closing =>
    match ← body? (← slice? format start (start + closing)) with
    | .error cause => return .error ⟨cause, opening⟩
    | .ok field => return .ok (field, start + closing + 1)

/-- One round of the loop. -/
def round? (format : List Char) (p : Progress) : Option (Except CompileError Round) := do
  let remaining ← slice? format p.position (byteSize format)
  match offsetOf? (· == '%') remaining with
  | none => return .ok (.last (p.instructions ++ [.literal (String.ofList remaining)]))
  | some opening =>
    let text ← text? remaining opening
    match ← enclosed? format (p.position + opening) with
    | .error e => return .error e
    | .ok (field, stop) => return .ok (.next ⟨stop, p.instructions ++ text ++ [field]⟩)

theorem lt_of_enclosed? {opening stop : Nat} {field : Instruction}
    (h : enclosed? format opening = some (.ok (field, stop))) : opening < stop := by
  obtain ⟨behind, -, h⟩ := Option.bind_eq_some_iff.mp h
  split at h
  · cases h
  · obtain ⟨body, -, h⟩ := Option.bind_eq_some_iff.mp h
    obtain ⟨outcome, -, h⟩ := Option.bind_eq_some_iff.mp h
    cases outcome with
    | error cause => cases h
    | ok field =>
      cases h
      omega

/-- A round that goes on has moved forward. -/
theorem position_lt_of_round? {p q : Progress} (h : round? format p = some (.ok (.next q))) :
    p.position < q.position := by
  obtain ⟨remaining, -, h⟩ := Option.bind_eq_some_iff.mp h
  split at h
  · cases h
  · obtain ⟨text, -, h⟩ := Option.bind_eq_some_iff.mp h
    obtain ⟨outcome, henclosed, h⟩ := Option.bind_eq_some_iff.mp h
    rcases outcome with e | ⟨field, stop⟩
    · cases h
    · cases h
      exact lt_of_le_of_lt (Nat.le_add_right ..) (lt_of_enclosed? henclosed)

/-! ## What a round finds -/

theorem text?_eq (run rest : List Char) :
    text? (run ++ rest) (byteSize run) = some (textOf run) := by
  by_cases hrun : run = []
  · subst hrun
    rfl
  · have hpos : 0 < byteSize run := Nat.pos_of_ne_zero (mt byteSize_eq_zero_iff.mp hrun)
    rw [text?, if_pos hpos, slice?_front, textOf_of_ne_nil hrun]
    rfl

theorem enclosed?_unterminated (front : List Char) (hbody : '%' ∉ body) :
    enclosed? (front ++ '%' :: body) (byteSize front)
      = some (.error ⟨.unterminated, byteSize front⟩) := by
  have hbehind := slice?_behind (c := '%') rfl front body
  simp only [enclosed?, hbehind, Option.bind_eq_bind, Option.bind_some, offsetOf?_char_none hbody]
  rfl

/-- A body with its percent signs ends behind the second one. -/
theorem enclosed?_field (front : List Char) (hbody : '%' ∉ body) (rest : List Char) :
    enclosed? (front ++ '%' :: (body ++ '%' :: rest)) (byteSize front)
      = some (match bodyOf body with
        | .error cause => .error ⟨cause, byteSize front⟩
        | .ok field => .ok (field, byteSize front + byteSize body + 2)) := by
  have hbehind := slice?_behind (c := '%') rfl front (body ++ '%' :: rest)
  have hslice := slice?_between (c := '%') rfl front body ('%' :: rest)
  have hstop : byteSize front + 1 + byteSize body + 1 = byteSize front + byteSize body + 2 := by
    omega
  simp only [enclosed?, hbehind, hslice, Option.bind_eq_bind, Option.bind_some,
    offsetOf?_char hbody, body?_eq, hstop]
  cases bodyOf body with
  | error cause => rfl
  | ok field => rfl

theorem round?_last (front : List Char) (hrun : '%' ∉ run) :
    round? (front ++ run) ⟨byteSize front, done⟩
      = some (.ok (.last (done ++ [.literal (String.ofList run)]))) := by
  simp only [round?, slice?_back, Option.bind_eq_bind, Option.bind_some, offsetOf?_char_none hrun]
  rfl

theorem round?_unterminated (front : List Char) (hrun : '%' ∉ run) (hbody : '%' ∉ body) :
    round? (front ++ (run ++ '%' :: body)) ⟨byteSize front, done⟩
      = some (.error ⟨.unterminated, byteSize front + byteSize run⟩) := by
  have henclosed := enclosed?_unterminated (front ++ run) hbody
  rw [List.append_assoc, byteSize_append] at henclosed
  simp only [round?, slice?_back, Option.bind_eq_bind, Option.bind_some, offsetOf?_char hrun,
    text?_eq, henclosed]
  rfl

theorem round?_field (front : List Char) (hrun : '%' ∉ run) (hbody : '%' ∉ body)
    (rest : List Char) :
    round? (front ++ (run ++ '%' :: (body ++ '%' :: rest))) ⟨byteSize front, done⟩
      = some (match bodyOf body with
        | .error cause => .error ⟨cause, byteSize front + byteSize run⟩
        | .ok field =>
          .ok (.next ⟨byteSize front + byteSize run + byteSize body + 2,
            done ++ textOf run ++ [field]⟩)) := by
  have henclosed := enclosed?_field (front ++ run) hbody rest
  rw [List.append_assoc, byteSize_append] at henclosed
  simp only [round?, slice?_back, Option.bind_eq_bind, Option.bind_some, offsetOf?_char hrun,
    text?_eq, henclosed]
  cases bodyOf body with
  | error cause => rfl
  | ok field => rfl

/-- What a format may look like from where a round begins. -/
inductive Turn : List Char → Prop where
  | last {run : List Char} (hrun : '%' ∉ run) : Turn run
  | unterminated {run body : List Char} (hrun : '%' ∉ run) (hbody : '%' ∉ body) :
    Turn (run ++ '%' :: body)
  | field {run body : List Char} (hrun : '%' ∉ run) (hbody : '%' ∉ body) (rest : List Char) :
    Turn (run ++ '%' :: (body ++ '%' :: rest))

theorem turn (cs : List Char) : Turn cs := by
  by_cases hopen : '%' ∈ cs
  · obtain ⟨run, after, rfl, hrun⟩ := List.eq_append_cons_of_mem hopen
    by_cases hclose : '%' ∈ after
    · obtain ⟨body, rest, rfl, hbody⟩ := List.eq_append_cons_of_mem hclose
      exact .field hrun hbody rest
    · exact .unterminated hrun hclose
  · exact .last hopen

/-- All that a round leaves behind when it goes on. -/
def through (front run body : List Char) : List Char := front ++ (run ++ '%' :: (body ++ ['%']))

theorem append_through (front run body rest : List Char) :
    front ++ (run ++ '%' :: (body ++ '%' :: rest)) = through front run body ++ rest := by
  simp [through]

theorem byteSize_through (front run body : List Char) :
    byteSize (through front run body) = byteSize front + byteSize run + byteSize body + 2 := by
  rw [through, byteSize_append, byteSize_append, byteSize_field, byteSize_nil]
  omega

/-! ## Where the loop stands -/

/-- A round that begins at a boundary takes all its slices, and if it goes on then it ends at a
boundary. -/
theorem round?_of_isBoundary {p : Progress} (hp : IsBoundary format p.position) :
    ∃ outcome, round? format p = some outcome ∧
      ∀ q, outcome = .ok (.next q) → IsBoundary format q.position := by
  obtain ⟨position, done⟩ := p
  obtain ⟨front, back, rfl, rfl⟩ := isBoundary_iff.mp hp
  -- only a round that comes to a second percent sign goes on
  cases turn back with
  | last hrun => exact ⟨_, round?_last front hrun, fun q h => by cases h⟩
  | unterminated hrun hbody =>
    exact ⟨_, round?_unterminated front hrun hbody, fun q h => by cases h⟩
  | @field run body hrun hbody rest =>
    refine ⟨_, round?_field front hrun hbody rest, fun q h => ?_⟩
    cases hfield : bodyOf body with
    | error cause =>
      rw [hfield] at h
      cases h
    | ok field =>
      rw [hfield] at h
      cases h
      rw [← byteSize_through, append_through]
      exact isBoundary_append _ rest

/-- Where the loop comes by as it compiles a format. -/
inductive Visits (format : List Char) : Progress → Prop where
  | start : Visits format ⟨0, []⟩
  | next {p q : Progress} (before : Visits format p) (hinside : p.position < byteSize format)
    (h : round? format p = some (.ok (.next q))) : Visits format q

/-- The loop only ever stands at a boundary. -/
theorem Visits.isBoundary {p : Progress} (h : Visits format p) : IsBoundary format p.position := by
  induction h with
  | start => exact isBoundary_append [] format
  | next before hinside hround ih =>
    obtain ⟨outcome, hround', hnext⟩ := round?_of_isBoundary ih
    exact hnext _ (Option.some.inj (hround'.symm.trans hround))

/-! ## The loop -/

/-- The rounds from an offset to the end of a format. -/
def run? (format : List Char) (p : Progress) : Option (Except CompileError (List Instruction)) :=
  if p.position < byteSize format then
    match hround : round? format p with
    | none => none
    | some (.error e) => some (.error e)
    | some (.ok (.last instructions)) => some (.ok instructions)
    | some (.ok (.next q)) =>
      have _ := position_lt_of_round? hround
      run? format q
  else some (.ok p.instructions)
termination_by byteSize format - p.position

theorem run?_end (format : List Char) (done : List Instruction) :
    run? format ⟨byteSize format, done⟩ = some (.ok done) := by
  rw [run?, if_neg (Nat.lt_irrefl _)]

theorem run?_round {p : Progress} (hinside : p.position < byteSize format) :
    run? format p = (round? format p).bind fun
      | .error e => some (.error e)
      | .ok (.last instructions) => some (.ok instructions)
      | .ok (.next q) => run? format q := by
  rw [run?, if_pos hinside]
  split
  all_goals
    rename_i hround
    simp only [hround, Option.bind_none, Option.bind_some]

/-- What the scan makes of the part that a round takes. -/
theorem scan_turn (start : Nat) (hrun : '%' ∉ run) (hbody : '%' ∉ body) (rest : List Char) :
    scan start (run ++ '%' :: (body ++ '%' :: rest))
      = match bodyOf body with
        | .error cause => .error ⟨cause, start + byteSize run⟩
        | .ok field =>
          (textOf run ++ field :: ·) <$> scan (start + byteSize run + byteSize body + 2) rest := by
  rw [scan_run start hrun (.inr ⟨_, rfl⟩), scan_field _ hbody]
  cases bodyOf body with
  | error cause => rfl
  | ok field => cases scan (start + byteSize run + byteSize body + 2) rest <;> rfl

/-- The loop goes on from where it stands as the scan does. The induction is on the length of what
is left, since a round takes a run of text and a body at once. -/
theorem run?_eq (front back : List Char) (done : List Instruction) :
    run? (front ++ back) ⟨byteSize front, done⟩
      = some ((done ++ ·) <$> scan (byteSize front) back) := by
  induction hn : back.length using Nat.strongRecOn generalizing front back done with
  | ind n ih =>
    by_cases hback : back = []
    · subst hback
      rw [List.append_nil, run?_end, scan_nil]
      simp
    · have hinside : byteSize front < byteSize (front ++ back) := by
        rw [byteSize_append]
        exact Nat.lt_add_of_pos_right (Nat.pos_of_ne_zero (mt byteSize_eq_zero_iff.mp hback))
      rw [run?_round hinside]
      cases turn back with
      | last hrun =>
        rw [round?_last front hrun]
        have hscan := scan_run (byteSize front) hrun (.inl rfl)
        rw [List.append_nil] at hscan
        rw [hscan, scan_nil, textOf_of_ne_nil hback]
        simp
      | unterminated hrun hbody =>
        rw [round?_unterminated front hrun hbody, scan_run _ hrun (.inr ⟨_, rfl⟩),
          scan_unterminated _ hbody]
        rfl
      | @field run body hrun hbody rest =>
        rw [round?_field front hrun hbody rest, scan_turn _ hrun hbody rest]
        cases bodyOf body with
        | error cause => rfl
        | ok field =>
          -- the rest comes behind all that this round has taken
          have hshorter : rest.length < n := by
            simp only [List.length_append, List.length_cons] at hn
            omega
          simp only [Option.bind_some, append_through, ← byteSize_through,
            ih _ hshorter _ rest _ rfl, Functor.map_map]
          simp

/-- `compile` by offsets. -/
def compile? (template : String) : Option (Except CompileError Program) :=
  (fun outcome => (⟨template, ·⟩) <$> outcome) <$> run? template.toList ⟨0, []⟩

theorem compile?_eq (template : String) : compile? template = some (compile template) := by
  have hrun : run? template.toList ⟨0, []⟩ = some (([] ++ ·) <$> scan 0 template.toList) :=
    run?_eq [] template.toList []
  rw [compile?, hrun]
  unfold compile scan
  cases assemble 0 (template.toList.splitOn '%') <;> rfl

end Compile

end AccessLog
