import AccessLog.CommandLine.Run
import AccessLog.Proofs.Canonical
import AccessLog.Proofs.Text.Quoted

/-!
# Listings are read line by line

A listing has a line for each instruction and one more, whatever the texts of the instructions are:
nothing that is written in a line is the end of one (`no_line_feed_listing`). And a line is about one
instruction in one place only (`listing_inj`). What stands before its text is free of quotes, so the
text is found at the first quote, and its end is the next bare one; the text of a normal instruction
is what the instruction compiles from, so there is only one with this text. With the instruction
known all of the line is known but for the number in front.

So **two formats have the same listing exactly if they compile to the same instructions**
(`check_lines`).
-/

set_option autoImplicit false

namespace AccessLog

/-! ## The parts of a line -/

/-- Blanks in front of a numeral do not hide the number. -/
theorem Text.padLeft_decimal_inj {width k l : Nat}
    (h : padLeft width ' ' (decimal k) = padLeft width ' ' (decimal l)) : k = l := by
  have hblanks : ∀ n, ∀ c ∈ List.replicate n ' ', (c == ' ') = true := by
    intro n c hc
    rw [List.eq_of_mem_replicate hc]
    rfl
  have hdigits : ∀ n, ∀ c ∈ (Nat.toDigits 10 n).head?, (c == ' ') = false := by
    intro n c hc
    rw [beq_eq_false_iff_ne]
    rintro rfl
    cases isDigit_toDigits n ' ' (List.mem_of_head? hc)
  have hdrop := congrArg (·.toList.dropWhile (· == ' ')) h
  simp only [padLeft, decimal, String.toList_append, String.toList_ofList] at hdrop
  rw [dropWhile_append (hblanks _) (hdigits k), dropWhile_append (hblanks _) (hdigits l)] at hdrop
  have hnumber := natural?_toDigits k
  rw [hdrop, natural?_toDigits] at hnumber
  exact (Option.some.inj hnumber).symm

namespace Instruction

/-- What a line says of the sort of its instruction. -/
def heading (i : Instruction) : String :=
  match i.command with
  | some command => command.name
  | none => "text"

/-- What stands in a line before the text. -/
def front (i : Instruction) : List Char :=
  ("  " ++ Text.padRight 22 i.heading ++ " ").toList

/-- What stands in a line behind the text. -/
def ending (i : Instruction) : List Char :=
  match i.limit with
  | some n => ("  max " ++ Text.decimal n).toList
  | none => []

theorem toList_listing (i : Instruction) (k : Nat) :
    (i.listing k).toList = (Text.padLeft 3 ' ' (Text.decimal k)).toList ++
      (i.front ++ ((Text.quoted i.text).toList ++ i.ending)) := by
  unfold listing front ending heading
  cases i.limit <;> cases i.command <;> simp [String.toList_append]

/-- Digits and blanks are neither quotes nor ends of a line. -/
theorem plain_number (k : Nat) :
    '"' ∉ (Text.padLeft 3 ' ' (Text.decimal k)).toList ∧
      '\n' ∉ (Text.padLeft 3 ' ' (Text.decimal k)).toList := by
  have hquote : '"' ∉ Nat.toDigits 10 k := fun h => nomatch Text.isDigit_toDigits k _ h
  have hline : '\n' ∉ Nat.toDigits 10 k := fun h => nomatch Text.isDigit_toDigits k _ h
  simp [Text.padLeft, Text.decimal, String.toList_append, hquote, hline]

theorem plain_heading (i : Instruction) :
    '"' ∉ i.heading.toList ∧ '\n' ∉ i.heading.toList := by
  have hall : ∀ c ∈ (Table.all : List Command), '"' ∉ c.name.toList ∧ '\n' ∉ c.name.toList := by
    decide +kernel
  rw [heading]
  cases i.command with
  | none => decide
  | some command => exact hall command (Table.mem_all command)

theorem plain_front (i : Instruction) : '"' ∉ i.front ∧ '\n' ∉ i.front := by
  obtain ⟨hquote, hline⟩ := i.plain_heading
  simp [front, Text.padRight, String.toList_append, hquote, hline]

theorem no_line_feed_ending (i : Instruction) : '\n' ∉ i.ending := by
  rw [ending]
  cases i.limit with
  | none => exact List.not_mem_nil
  | some n =>
    have hline : '\n' ∉ Nat.toDigits 10 n := fun h => nomatch Text.isDigit_toDigits n _ h
    simp [Text.decimal, String.toList_append, hline]

/-- **A line of a listing holds no end of a line.** -/
theorem no_line_feed_listing (i : Instruction) (k : Nat) : '\n' ∉ (i.listing k).toList := by
  simp [toList_listing, (plain_number k).2, i.plain_front.2, Text.no_line_feed_quoted,
    i.no_line_feed_ending]

/-! ## What a line is about -/

/-- Normal instructions are told apart by their texts. -/
theorem Normal.text_inj {i j : Instruction} (hi : i.Normal) (hj : j.Normal)
    (h : i.text = j.text) : i = j := by
  have hcompile : ∀ {i : Instruction}, i.Normal → compile i.text = .ok ⟨i.text, [i]⟩ := by
    intro i hi
    have hnormal : AccessLog.Normal [i] := ⟨by simpa using hi, .singleton i⟩
    have hcanonical := Compile.compile_canonical (p := ⟨"", [i]⟩) hnormal
    simpa [Program.canonical] using hcanonical
  have hsame := hcompile hi
  rw [h, hcompile hj] at hsame
  simpa [eq_comm] using hsame

/-- The text of an instruction stands at the first quote of its line. -/
theorem dropWhile_listing (i : Instruction) (k : Nat) :
    (i.listing k).toList.dropWhile (· != '"') = (Text.quoted i.text).toList ++ i.ending := by
  have hfront : ∀ c ∈ (Text.padLeft 3 ' ' (Text.decimal k)).toList ++ i.front,
      (c != '"') = true := by
    intro c hc
    rw [bne_iff_ne]
    rintro rfl
    rcases List.mem_append.mp hc with hc | hc
    · exact (plain_number k).1 hc
    · exact i.plain_front.1 hc
  rw [toList_listing, ← List.append_assoc]
  exact dropWhile_append hfront (by simp [Text.quoted])

/-- **A line is about one instruction in one place.** -/
theorem Normal.listing_inj {i j : Instruction} (hi : i.Normal) (hj : j.Normal) {k l : Nat} :
    i.listing k = j.listing l ↔ k = l ∧ i = j := by
  constructor
  · intro h
    have htext := congrArg (·.toList.dropWhile (· != '"')) h
    simp only [dropWhile_listing] at htext
    obtain rfl := hi.text_inj hj (Text.quoted_append_inj htext).1
    -- what is left to compare is the number
    have hchars := congrArg String.toList h
    rw [toList_listing, toList_listing] at hchars
    have hnumber := List.append_cancel_right hchars
    exact ⟨Text.padLeft_decimal_inj (String.toList_inj.mp hnumber), rfl⟩
  · rintro ⟨rfl, rfl⟩
    rfl

end Instruction

/-! ## Lines -/

namespace CommandLine

/-- Lines are found again by splitting, if none of them holds the end of a line. -/
theorem splitOn_lines {texts : List String} (h : ∀ text ∈ texts, '\n' ∉ text.toList)
    {last : String} (hlast : '\n' ∉ last.toList) :
    (lines texts ++ last).toList.splitOn '\n' = (texts ++ [last]).map String.toList := by
  induction texts with
  | nil => simpa [lines] using List.splitOn_eq_singleton hlast
  | cons text texts ih =>
    obtain ⟨htext, htexts⟩ := List.forall_mem_cons.mp h
    have hchars : (lines (text :: texts) ++ last).toList
        = text.toList ++ '\n' :: (lines texts ++ last).toList := by
      simp [lines, String.toList_append]
    rw [hchars, List.splitOn_append_cons_self_of_not_mem htext, ih htexts]
    rfl

end CommandLine

namespace Program

/-- The lines of a listing. -/
def rows (p : Program) : List String :=
  p.instructions.mapIdx (fun k i => i.listing k) ++ [Text.decimal p.size ++ " instructions"]

theorem splitOn_listing (p : Program) :
    p.listing.toList.splitOn '\n' = p.rows.map String.toList := by
  have hlisting : p.listing = CommandLine.lines (p.instructions.mapIdx fun k i => i.listing k)
      ++ (Text.decimal p.size ++ " instructions") := by
    simp [listing, CommandLine.lines, List.mapIdx_eq_zipIdx_map, String.append_assoc,
      Function.comp_def]
  have hrows : ∀ text ∈ p.instructions.mapIdx fun k i => i.listing k, '\n' ∉ text.toList := by
    intro text htext
    obtain ⟨k, hk, rfl⟩ := List.mem_mapIdx.mp htext
    exact Instruction.no_line_feed_listing _ _
  have hlast : '\n' ∉ (Text.decimal p.size ++ " instructions").toList := by
    have hline : '\n' ∉ Nat.toDigits 10 p.size := fun h => nomatch Text.isDigit_toDigits _ _ h
    simp [Text.decimal, String.toList_append, hline]
  rw [hlisting, CommandLine.splitOn_lines hrows hlast, rows]

/-- Normal programs are told apart by their lines. -/
theorem rows_inj {p q : Program} (hp : Normal p.instructions) (hq : Normal q.instructions)
    (h : p.rows = q.rows) : p.instructions = q.instructions := by
  have hlength : p.instructions.length = q.instructions.length := by
    simpa [rows] using congrArg List.length h
  refine List.ext_getElem hlength fun k hk hk' => ?_
  have hline := congrArg (·[k]?) h
  simp only [rows] at hline
  rw [List.getElem?_append_left (by simpa using hk), List.getElem?_append_left (by simpa using hk'),
    List.getElem?_mapIdx, List.getElem?_mapIdx, List.getElem?_eq_getElem hk,
    List.getElem?_eq_getElem hk'] at hline
  have hi := hp.each _ (List.getElem_mem hk)
  have hj := hq.each _ (List.getElem_mem hk')
  exact ((hi.listing_inj hj).mp (Option.some.inj hline)).2

end Program

/-! ## What is printed -/

namespace CommandLine

/-- Behind two dashes every text is a format to be checked. -/
theorem read_check (template : String) :
    read ["check", "--", template] = .ok (.check template false) := by
  show readCheck ["--", template] = _
  rw [readCheck, readItems]
  rfl

theorem run_check {arguments : List String} {template : String} {p : Program}
    (h : read arguments = .ok (.check template false)) (hp : compile template = .ok p)
    (around : Surroundings Id) : run around arguments = ⟨0, p.listing ++ "\n", ""⟩ := by
  have hlines : Request.lines (.check template false) around = .ok [p.listing] := by
    show (checkText template false).map ([·]) = _
    rw [checkText, hp]
    rfl
  unfold run
  rw [h]
  show (match Request.lines (.check template false) around with
    | .ok texts => (⟨0, lines texts, ""⟩ : Outcome)
    | .error e => e.outcome) = _
  rw [hlines]
  simp [lines]

/-- **The listing of a format has a line for each instruction and one more, and tells them all.** It
is what is printed when a format is checked, and every format that compiles can be. Split at the ends
of lines it falls into one line for each instruction, which is about this instruction in this place
and no other, and a last line with their number. Formats have the same listing only if they compile
to the same instructions. -/
theorem check_lines {template : String} {p : Program} (hp : compile template = .ok p) :
    read ["check", "--", template] = .ok (.check template false) ∧
    (∀ arguments, read arguments = .ok (.check template false) → ∀ around : Surroundings Id,
      run around arguments = ⟨0, p.listing ++ "\n", ""⟩) ∧
    (∃ texts : List String, p.listing.toList.splitOn '\n' = texts.map String.toList ∧
      texts.length = p.size + 1 ∧
      (∀ k (i : Instruction), p.instructions[k]? = some i → texts[k]? = some (i.listing k)) ∧
      texts[p.size]? = some (Text.decimal p.size ++ " instructions")) ∧
    ∀ template' p', compile template' = .ok p' →
      (∀ k (i : Instruction), p.instructions[k]? = some i →
        ∀ l (j : Instruction), p'.instructions[l]? = some j →
          (i.listing k = j.listing l ↔ k = l ∧ i = j)) ∧
      (p.listing = p'.listing ↔ p.instructions = p'.instructions) := by
  have hnormal := Compile.normal_of_compile hp
  refine ⟨read_check template, fun arguments h around => run_check h hp around,
    ⟨p.rows, p.splitOn_listing, ?_, ?_, ?_⟩, ?_⟩
  · simp [Program.rows, Program.size]
  · intro k i hi
    rw [Program.rows, List.getElem?_append_left, List.getElem?_mapIdx, hi]
    · rfl
    · rw [List.length_mapIdx]
      exact (List.getElem?_eq_some_iff.mp hi).1
  · simp [Program.rows, Program.size]
  · intro template' p' hp'
    have hnormal' := Compile.normal_of_compile hp'
    constructor
    · intro k i hi l j hj
      exact (hnormal.each i (List.mem_of_getElem? hi)).listing_inj
        (hnormal'.each j (List.mem_of_getElem? hj))
    · constructor
      · intro heq
        have hrows : p.rows.map String.toList = p'.rows.map String.toList := by
          rw [← p.splitOn_listing, ← p'.splitOn_listing, heq]
        exact Program.rows_inj hnormal hnormal' (List.map_injective_iff.mpr
          (fun _ _ => String.toList_inj.mp) hrows)
      · intro heq
        simp only [Program.listing, Program.size, heq]

/-- A text with ends of lines, a quote, a backslash and what looks like a limit, and a command that
is too long for its column. -/
theorem check_lines_quoted :
    (∃ p, compile "a\n\"  max 3\n\\%DOWNSTREAM_REMOTE_ADDRESS:3%" = .ok p ∧ p.instructions
      = [.literal "a\n\"  max 3\n\\", ⟨.field (.str .clientRemoteAddress), some 3⟩]) ∧
    run (m := Id) ⟨fun _ => .error .noSuchFile, .ok ""⟩
        ["check", "--", "a\n\"  max 3\n\\%DOWNSTREAM_REMOTE_ADDRESS:3%"]
      = ⟨0, "  0  text                   \"a\\n\\\"  max 3\\n\\\\\"\n" ++
          "  1  DOWNSTREAM_REMOTE_ADDRESS \"%DOWNSTREAM_REMOTE_ADDRESS:3%\"  max 3\n" ++
          "2 instructions\n", ""⟩ := by
  have hp : compile "a\n\"  max 3\n\\%DOWNSTREAM_REMOTE_ADDRESS:3%"
      = .ok ⟨_, [.literal "a\n\"  max 3\n\\",
          ⟨.field (.str .clientRemoteAddress), some 3⟩]⟩ := rfl
  obtain ⟨hread, hrun, -, -⟩ := check_lines hp
  refine ⟨⟨_, hp, rfl⟩, (hrun _ hread _).trans ?_⟩
  refine congrArg (fun output => (⟨0, output, ""⟩ : Outcome)) ?_
  decide +kernel

end CommandLine

end AccessLog
