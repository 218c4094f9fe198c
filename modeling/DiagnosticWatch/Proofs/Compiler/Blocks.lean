import DiagnosticWatch.Compiler.Output

/-!
# Output read block by block

The reader sees one line at a time and holds a diagnostic back until its message is complete. All of
the output can be read at once instead: it is cut into blocks, and a block is the header of a
diagnostic with the lines that go on with its message, or any other line on its own.
`outputs_eq_blocks` says that the two readings agree. A line that continues nothing is a block like
any other.
-/

namespace DiagnosticWatch.Compiler

namespace Line

/-- What a line says, whatever blanks it ends with. -/
def said (line : String) : Line :=
  classify (Text.trimEnd line.toList)

/-- Whether a line goes on with a message, whatever blanks it ends with. -/
def continues (line : String) : Bool :=
  isContinuation (Text.trimEnd line.toList)

def isHeader : Line → Bool
  | located .. | global .. => true
  | _ => false

/-- The diagnostic that a line heads. Its file is as the line has it. -/
def printed? (configPath : Path) : Line → Option Diagnostic
  | located file line column category code message =>
    some { file := ⟨file⟩, line, column, category, code, message }
  | global category code message =>
    some { file := configPath, line := 1, column := 1, category, code, message }
  | _ => none

end Line

/-- A line that says something of its own, and the lines that go on with its message. -/
structure Block where
  line : Line
  continued : List String
  deriving DecidableEq, Repr

def blocks : List String → List Block
  | [] => []
  | line :: lines =>
    if (Line.said line).isHeader then
      { line := .said line, continued := lines.takeWhile Line.continues } ::
        blocks (lines.dropWhile Line.continues)
    else { line := .said line, continued := [] } :: blocks lines
termination_by lines => lines.length
decreasing_by
  · exact Nat.lt_succ_of_le (List.dropWhile_suffix _).length_le
  · exact Nat.lt_succ_self _

end Compiler

/-- The diagnostic with further lines of its message, without the blanks around them. -/
def Diagnostic.extended (d : Diagnostic) (lines : List String) : Diagnostic :=
  { d with message := Text.joinTexts '\n' (d.message :: lines.map Text.strip) }

namespace Diagnostic

@[simp] theorem extended_nil (d : Diagnostic) : d.extended [] = d := by
  simp [extended]

/-- Lines can be added one by one. -/
theorem extended_cons (d : Diagnostic) (line : String) (lines : List String) :
    { d with message := d.message ++ "\n" ++ Text.strip line }.extended lines =
      d.extended (line :: lines) := by
  have joined := Text.joinTexts_cons_cons '\n' d.message (Text.strip line) (lines.map Text.strip)
  exact congrArg (fun message => { d with message }) joined

end Diagnostic

namespace Compiler

/-- The diagnostic of a block. Its file is as the header has it. -/
def Block.printed? (configPath : Path) (b : Block) : Option Diagnostic :=
  (b.line.printed? configPath).map (·.extended b.continued)

namespace Reader

def outputsOf (r : Reader) (b : Block) : List Output :=
  ((r.headed? b.line).map (·.extended b.continued)).toList.map .diagnostic ++ immediate b.line

variable {r : Reader}

theorem outputs_of_header {line : Line} (h : line.isHeader = true) :
    ∃ d, r.headed? line = some d ∧ immediate line = [] := by
  cases line with
  | located | global => exact ⟨_, rfl, rfl⟩
  | phase | listed | noise => cases h

theorem headed?_of_not_header {line : Line} (h : line.isHeader = false) :
    r.headed? line = none := by
  cases line with
  | located | global => cases h
  | phase | listed | noise => rfl

/-- A line that finds nothing held back is read on its own. -/
theorem feed_of_clear (h : r.pending = none) (line : String) :
    r.feed line =
      (immediate (.said line), { r with pending := r.headed? (.said line) }) := by
  simp only [feed, h]
  rfl

/-- What is held back goes on until a line comes that does not continue it. -/
theorem outputs_of_pending {d : Diagnostic} (h : r.pending = some d) (lines : List String) :
    r.outputs lines =
      .diagnostic (d.extended (lines.takeWhile Line.continues)) ::
        { r with pending := none }.outputs (lines.dropWhile Line.continues) := by
  induction lines generalizing r d with
  | nil => simp [outputs, flushed, h]
  | cons line lines ih =>
      cases hline : Line.continues line with
      | true =>
          have fed : r.feed line =
              ([], { r with pending := some { d with
                message := d.message ++ "\n" ++ Text.strip line } }) := by
            simp only [Line.continues] at hline
            simp only [feed, h, if_pos hline, Text.trim_trimEnd, Text.strip]
          rw [outputs, fed, ih rfl, Diagnostic.extended_cons, List.takeWhile_cons_of_pos hline,
            List.dropWhile_cons_of_pos hline]
          rfl
      | false =>
          have fed : r.feed line =
              (.diagnostic d :: immediate (.said line),
                { r with pending := r.headed? (.said line) }) := by
            simp only [Line.continues] at hline
            simp only [feed, h, hline, Bool.false_eq_true, if_false]
            rfl
          rw [outputs, fed, List.takeWhile_cons_of_neg (by simp [hline]),
            List.dropWhile_cons_of_neg (by simp [hline]), Diagnostic.extended_nil, outputs,
            feed_of_clear rfl]
          rfl

/-- What a block puts out does not depend on what is held back in front of it. -/
theorem outputsOf_congr (r : Reader) (pending : Option Diagnostic) :
    { r with pending }.outputsOf = r.outputsOf := by
  funext b
  rw [outputsOf, outputsOf]
  cases b.line <;> rfl

/-- Reading line by line puts out what the blocks put out, in order. -/
theorem outputs_eq_blocks (h : r.pending = none) (lines : List String) :
    r.outputs lines = (blocks lines).flatMap r.outputsOf := by
  induction lines using blocks.induct generalizing r with
  | case1 => simp [outputs, blocks, flushed, h]
  | case2 line lines header ih =>
      obtain ⟨d, hd, silent⟩ := outputs_of_header (r := r) header
      have first : r.outputsOf
          { line := .said line, continued := lines.takeWhile Line.continues } =
            [.diagnostic (d.extended (lines.takeWhile Line.continues))] := by
        simp [outputsOf, hd, silent]
      rw [outputs, feed_of_clear h, silent, outputs_of_pending hd, ih rfl, outputsOf_congr,
        outputsOf_congr, blocks, if_pos header, List.flatMap_cons, first]
      rfl
  | case3 line lines other ih =>
      have silent := headed?_of_not_header (r := r) (Bool.eq_false_iff.2 other)
      have first :
          r.outputsOf { line := .said line, continued := [] } = immediate (.said line) := by
        simp [outputsOf, silent]
      rw [outputs, feed_of_clear h, ih silent, outputsOf_congr, blocks, if_neg other,
        List.flatMap_cons, first]

end Reader

namespace Line

theorem located?_ne_phase (name cs : List Char) (message : String) :
    located? name cs ≠ some (.phase message) := by
  induction cs generalizing name with
  | nil => simp [located?]
  | cons c cs ih =>
      rw [located?]
      split
      · simp
      · split
        · simp
        · exact ih (c :: name)

theorem global?_ne_phase (cs : List Char) (message : String) :
    global? cs ≠ some (.phase message) := by
  rw [global?]
  cases tag? cs <;> simp

theorem phase?_of_classify {cs : List Char} {message : String}
    (h : classify cs = .phase message) : phase? cs = some (.phase message) := by
  rw [classify] at h
  cases hlocated : located? [] cs with
  | some line =>
      simp only [hlocated, Option.some_or, Option.getD_some] at h
      exact absurd (h ▸ hlocated) (located?_ne_phase [] cs message)
  | none =>
      cases hglobal : global? cs with
      | some line =>
          simp only [hlocated, hglobal, Option.none_or, Option.some_or, Option.getD_some] at h
          exact absurd (h ▸ hglobal) (global?_ne_phase cs message)
      | none =>
          simp only [hlocated, hglobal, Option.none_or] at h
          cases hphase : phase? cs with
          | some line =>
              simp only [hphase, Option.some_or, Option.getD_some] at h
              rw [h]
          | none =>
              rw [hphase, Option.none_or, listed?] at h
              split at h <;> cases h

/-- A phase does not go on with the message of a diagnostic: it begins with the time of day. -/
theorem not_continues_of_phase {line message : String} (h : said line = .phase message) :
    continues line = false := by
  obtain ⟨rest, hrest, -⟩ := Option.bind_eq_some_iff.1 (phase?_of_classify h)
  obtain ⟨c, cs, hline, visible⟩ := front_of_timeOfDay? hrest
  rw [continues, hline]
  exact visible

end Line

/-- A phase comes behind whatever has been held back. -/
theorem Reader.feed_of_phase {line message : String} (h : Line.said line = .phase message)
    (r : Reader) :
    r.feed line = (r.flushed ++ [.phase message], { r with pending := none }) := by
  have fresh := Line.not_continues_of_phase h
  rw [Line.continues] at fresh
  rw [Line.said] at h
  cases hpending : r.pending with
  | none => simp [feed, flushed, hpending, h, immediate, headed?]
  | some d => simp [feed, flushed, hpending, h, fresh, immediate, headed?]

end DiagnosticWatch.Compiler
