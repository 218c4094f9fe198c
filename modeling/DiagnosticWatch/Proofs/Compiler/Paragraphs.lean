import DiagnosticWatch.Proofs.Compiler.Blocks
import DiagnosticWatch.Proofs.Run
import Mathlib.Data.List.Chain
import Mathlib.Data.List.TakeWhile

/-!
# Output read in paragraphs

All lines of an output can be read at once. They are cut into paragraphs: a line that is read on its
own, and behind the header of a diagnostic the longest run of indented lines, which go on with its
message. There is one way to do this, every line is in one paragraph, and a paragraph means one
piece of output or none.

A reader that is fed line by line puts out the same. What it holds back at any time is the
diagnostic of the last paragraph: a header may still be continued, everything else has been put out.
-/

namespace DiagnosticWatch.Compiler

/-- Whether a line starts with a blank and is not blank as a whole. -/
def Line.isIndented (line : String) : Bool :=
  line.toList.head?.any Text.isBlank && !Text.isAllBlank line

/-- A line that is read on its own, and the lines that go on with its message. -/
structure Paragraph where
  head : String
  body : List String
  deriving DecidableEq, Repr

namespace Paragraph

def lines (g : Paragraph) : List String :=
  g.head :: g.body

def isHeaded (g : Paragraph) : Bool :=
  (Line.said g.head).isHeader

/-- A message with the lines that go on with it, each on a new line and without the blanks around
it. -/
def continued (g : Paragraph) (message : String) : String :=
  message ++ String.join (g.body.map fun line => "\n" ++ Text.strip line)

def meaning? (p : Project) (g : Paragraph) : Option Output :=
  match Line.said g.head with
  | .located file line column category code message =>
    some (.diagnostic
      { file := Path.normalize ⟨file⟩ p.root, line, column, category, code
        message := g.continued message })
  | .global category code message =>
    some (.diagnostic
      { file := p.configPath, line := 1, column := 1, category, code
        message := g.continued message })
  | .phase message => some (.phase message)
  | .listed path => some (.listed ⟨path⟩)
  | .noise => none

end Paragraph

/-- How lines are read in paragraphs. Only a header is continued, by indented lines, and it takes in
every indented line that follows directly. -/
structure IsReading (lines : List String) (gs : List Paragraph) : Prop where
  covers : gs.flatMap Paragraph.lines = lines
  headed : ∀ g ∈ gs, g.body ≠ [] → g.isHeaded = true
  indented : ∀ g ∈ gs, ∀ line ∈ g.body, Line.isIndented line = true
  maximal : gs.IsChain fun g h => g.isHeaded = true → Line.isIndented h.head = false

/-- The paragraphs that no further line can go on with. -/
def settled (gs : List Paragraph) : List Paragraph :=
  if gs.getLast?.any Paragraph.isHeaded then gs.dropLast else gs

def paragraphs : List String → List Paragraph
  | [] => []
  | line :: lines =>
    if (Line.said line).isHeader then
      ⟨line, lines.takeWhile Line.isIndented⟩ :: paragraphs (lines.dropWhile Line.isIndented)
    else ⟨line, []⟩ :: paragraphs lines
termination_by lines => lines.length
decreasing_by
  · exact Nat.lt_succ_of_le (List.dropWhile_suffix _).length_le
  · exact Nat.lt_succ_self _

theorem paragraphs_header {line : String} (header : (Line.said line).isHeader = true)
    (lines : List String) :
    paragraphs (line :: lines) =
      ⟨line, lines.takeWhile Line.isIndented⟩ :: paragraphs (lines.dropWhile Line.isIndented) := by
  rw [paragraphs, if_pos header]

theorem paragraphs_other {line : String} (other : ¬(Line.said line).isHeader = true)
    (lines : List String) : paragraphs (line :: lines) = ⟨line, []⟩ :: paragraphs lines := by
  rw [paragraphs, if_neg other]

theorem head?_paragraphs (lines : List String) :
    (paragraphs lines).head?.map Paragraph.head = lines.head? := by
  cases lines with
  | nil => rw [paragraphs]; rfl
  | cons line lines =>
      by_cases header : (Line.said line).isHeader = true
      · rw [paragraphs_header header]; rfl
      · rw [paragraphs_other header]; rfl

theorem isReading_paragraphs (lines : List String) : IsReading lines (paragraphs lines) := by
  induction lines using paragraphs.induct with
  | case1 =>
      rw [paragraphs]
      exact ⟨rfl, by simp, by simp, .nil⟩
  | case2 line lines header ih =>
      rw [paragraphs_header header]
      refine ⟨?_, ?_, ?_, ih.maximal.cons ?_⟩
      · rw [List.flatMap_cons, ih.covers, Paragraph.lines, List.cons_append,
          List.takeWhile_append_dropWhile]
      · exact List.forall_mem_cons.2 ⟨fun _ => header, ih.headed⟩
      · exact List.forall_mem_cons.2 ⟨fun line h => List.mem_takeWhile_imp h, ih.indented⟩
      · intro g hg _
        have first := head?_paragraphs (lines.dropWhile Line.isIndented)
        have fresh := List.head?_dropWhile_not Line.isIndented lines
        rw [Option.mem_def.1 hg, Option.map_some] at first
        rwa [← first] at fresh
  | case3 line lines other ih =>
      rw [paragraphs_other other]
      refine ⟨?_, ?_, ?_, ih.maximal.cons fun g _ header => absurd header other⟩
      · rw [List.flatMap_cons, ih.covers]
        rfl
      · exact List.forall_mem_cons.2 ⟨fun h => absurd rfl h, ih.headed⟩
      · exact List.forall_mem_cons.2 ⟨by simp, ih.indented⟩

/-- There is one way to read some lines. -/
theorem IsReading.eq_paragraphs {lines : List String} {gs : List Paragraph}
    (h : IsReading lines gs) : gs = paragraphs lines := by
  induction gs generalizing lines with
  | nil =>
      obtain rfl : [] = lines := h.covers
      rw [paragraphs]
  | cons g gs ih =>
      have rest : IsReading (gs.flatMap Paragraph.lines) gs :=
        ⟨rfl, (List.forall_mem_cons.1 h.headed).2, (List.forall_mem_cons.1 h.indented).2,
          h.maximal.tail⟩
      have indented := (List.forall_mem_cons.1 h.indented).1
      have covers : lines = g.head :: (g.body ++ gs.flatMap Paragraph.lines) := h.covers.symm
      rw [covers]
      by_cases header : (Line.said g.head).isHeader = true
      · have run : (gs.flatMap Paragraph.lines).takeWhile Line.isIndented = [] ∧
            (gs.flatMap Paragraph.lines).dropWhile Line.isIndented =
              gs.flatMap Paragraph.lines := by
          cases gs with
          | nil => exact ⟨rfl, rfl⟩
          | cons next gs =>
              have fresh : ¬Line.isIndented next.head = true := by
                rw [(List.isChain_cons.1 h.maximal).1 next rfl header]
                exact Bool.false_ne_true
              exact ⟨List.takeWhile_cons_of_neg fresh, List.dropWhile_cons_of_neg fresh⟩
        rw [paragraphs_header header, List.takeWhile_append_of_pos indented, run.1,
          List.dropWhile_append_of_pos indented, run.2, ← ih rest, List.append_nil]
      · have alone : g.body = [] := by
          by_contra body
          exact header (h.headed g List.mem_cons_self body)
        rw [paragraphs_other header, alone, List.nil_append, ← ih rest, ← alone]

/-- A blank line ends a message: the indented line behind it is read on its own. -/
example :
    paragraphs
        ["a.ts(1,7): error TS2322: Type", "  more", " ", "  b.ts(2,1): error TS1: c", "\td"] =
      [⟨"a.ts(1,7): error TS2322: Type", ["  more"]⟩, ⟨" ", []⟩,
        ⟨"  b.ts(2,1): error TS1: c", ["\td"]⟩] := by
  decide +kernel

/-- Blanks at its end make no difference to how a line starts, unless it is blank. -/
theorem Line.continues_eq_isIndented : continues = isIndented := by
  funext line
  rw [continues, isIndented, Text.isAllBlank]
  cases trimmed : Text.trimEnd line.toList with
  | nil =>
      rw [Text.trimEnd_eq_nil_iff.1 trimmed, Bool.not_true, Bool.and_false]
      rfl
  | cons c cs =>
      have visible : ¬line.toList.all Text.isBlank = true := by
        rw [← Text.trimEnd_eq_nil_iff, trimmed]
        exact List.cons_ne_nil c cs
      obtain ⟨rest, whole⟩ : c :: cs <+: line.toList := trimmed ▸ Text.trimEnd_prefix line.toList
      rw [Bool.eq_false_iff.2 visible, ← whole]
      exact (Bool.and_true _).symm

theorem blocks_eq_paragraphs (lines : List String) :
    blocks lines =
      (paragraphs lines).map fun g => { line := .said g.head, continued := g.body } := by
  induction lines using blocks.induct with
  | case1 => rw [blocks, paragraphs, List.map_nil]
  | case2 line lines header ih =>
      rw [blocks, if_pos header, ih, paragraphs_header header, List.map_cons,
        Line.continues_eq_isIndented]
  | case3 line lines other ih =>
      rw [blocks, if_neg other, ih, paragraphs_other other, List.map_cons]

theorem Paragraph.continued_eq (g : Paragraph) (message : String) :
    g.continued message = Text.joinTexts '\n' (message :: g.body.map Text.strip) := by
  rw [continued]
  induction g.body generalizing message with
  | nil => simp
  | cons line lines ih =>
      rw [List.map_cons, List.map_cons, ← Text.joinTexts_cons_cons, ← ih, String.join_cons,
        ← String.append_assoc, ← String.append_assoc]
      rfl

namespace Reader

variable {r : Reader} {p : Project}

theorem outputsOf_paragraph (p : Project) (g : Paragraph) :
    (Reader.ofProject p).outputsOf { line := .said g.head, continued := g.body } =
      (g.meaning? p).toList := by
  rw [outputsOf, Paragraph.meaning?]
  cases Line.said g.head with
  | located | global => simp [headed?, immediate, ofProject, Diagnostic.extended, g.continued_eq]
  | phase | listed | noise => rfl

/-- All outputs are those of the lines, and behind them what the end of the output releases. -/
theorem outputs_eq_feed (r : Reader) (lines : List String) :
    r.outputs lines =
      (runAll feed lines r).1.flatten ++ (runAll feed lines r).2.finish.1.toList := by
  induction lines generalizing r with
  | nil => cases h : r.pending <;> simp [outputs, flushed, finish, h]
  | cons line lines ih => rw [outputs, ih, runAll_cons, List.flatten_cons, List.append_assoc]

/-- Whether something is held back behind a line: it is a header, or it is indented and goes on with
what is held back in front of it. -/
def heldBehind (held : Bool) (line : String) : Bool :=
  (Line.said line).isHeader || (held && Line.isIndented line)

theorem isSome_pending_feed (r : Reader) (line : String) :
    (r.feed line).2.pending.isSome = heldBehind r.pending.isSome line := by
  have fresh : (r.headed? (.said line)).isSome = (Line.said line).isHeader := by
    cases Line.said line <;> rfl
  cases hpending : r.pending with
  | none =>
      rw [feed_of_clear hpending]
      simpa [heldBehind] using fresh
  | some d =>
      rw [heldBehind, ← Line.continues_eq_isIndented, Line.continues]
      cases hline : Line.isContinuation (Text.trimEnd line.toList) with
      | true => simp [feed, hpending, hline]
      | false =>
          rw [Line.said] at fresh ⊢
          simpa [feed, hpending, hline] using fresh

theorem isSome_pending_feedAll (lines : List String) (r : Reader) :
    (runAll feed lines r).2.pending.isSome = lines.foldl heldBehind r.pending.isSome := by
  induction lines generalizing r with
  | nil => rfl
  | cons line lines ih => rw [runAll_cons, ih, isSome_pending_feed, List.foldl_cons]

theorem foldl_heldBehind_indented {lines : List String}
    (indented : ∀ line ∈ lines, Line.isIndented line = true) :
    lines.foldl heldBehind true = true := by
  induction lines with
  | nil => rfl
  | cons line lines ih =>
      obtain ⟨first, rest⟩ := List.forall_mem_cons.1 indented
      have held : heldBehind true line = true := by simp [heldBehind, first]
      rw [List.foldl_cons, held, ih rest]

/-- Something is held back behind lines whose last paragraph is about a diagnostic. -/
theorem foldl_heldBehind (lines : List String) :
    lines.foldl heldBehind false = (paragraphs lines).getLast?.any Paragraph.isHeaded := by
  induction lines using paragraphs.induct with
  | case1 => rw [paragraphs]; rfl
  | case2 line lines header ih =>
      have first : heldBehind false line = true := by simp [heldBehind, header]
      rw [paragraphs_header header, List.foldl_cons, first,
        ← List.takeWhile_append_dropWhile (p := Line.isIndented) (l := lines), List.foldl_append,
        foldl_heldBehind_indented fun l h => List.mem_takeWhile_imp h,
        List.takeWhile_append_dropWhile]
      have next := List.head?_dropWhile_not Line.isIndented lines
      have first := head?_paragraphs (lines.dropWhile Line.isIndented)
      generalize lines.dropWhile Line.isIndented = rest at ih next first ⊢
      cases rest with
      | nil =>
          rw [paragraphs]
          exact header.symm
      | cons l rest =>
          -- The line behind the paragraph is not indented, so it does not matter what it finds held
          -- back.
          have outside : Line.isIndented l = false := next
          have fresh : heldBehind true l = heldBehind false l := by simp [heldBehind, outside]
          obtain ⟨h, hs, hrest⟩ : ∃ h hs, paragraphs (l :: rest) = h :: hs :=
            List.exists_cons_of_ne_nil fun empty => by simp [empty] at first
          rw [List.foldl_cons, fresh, ← List.foldl_cons, ih, hrest, List.getLast?_cons_cons]
  | case3 line lines other ih =>
      have first : heldBehind false line = false := by
        simp [heldBehind, Bool.eq_false_iff.2 other]
      rw [paragraphs_other other, List.foldl_cons, first, ih, List.getLast?_cons]
      cases (paragraphs lines).getLast? with
      | none => exact (Bool.eq_false_iff.2 other).symm
      | some g => rfl

/-- Feeding lines one by one, and then ending the output, puts out what the paragraphs of the lines
mean, in their order. Of these outputs only the one that a last header begins waits for the end, and
a second end of the output adds nothing. -/
theorem feed_eq_meanings (p : Project) (lines : List String) :
    let fed := runAll feed lines (Reader.ofProject p)
    (∃ gs, (∀ gs', IsReading lines gs' ↔ gs' = gs) ∧
      fed.1.flatten ++ fed.2.finish.1.toList = gs.filterMap (·.meaning? p) ∧
        fed.1.flatten = (settled gs).filterMap (·.meaning? p)) ∧
      fed.2.finish.2.finish.1 = none := by
  intro fed
  have reading := isReading_paragraphs lines
  have all : fed.1.flatten ++ fed.2.finish.1.toList =
      (paragraphs lines).filterMap (·.meaning? p) := by
    rw [← outputs_eq_feed, outputs_eq_blocks rfl, blocks_eq_paragraphs, List.flatMap_map,
      List.filterMap_eq_flatMap_toList]
    exact List.flatMap_congr fun g _ => outputsOf_paragraph p g
  have unique (gs : List Paragraph) : IsReading lines gs ↔ gs = paragraphs lines :=
    ⟨IsReading.eq_paragraphs, fun h => h ▸ reading⟩
  refine ⟨⟨paragraphs lines, unique, all, ?_⟩, rfl⟩
  have held : fed.2.finish.1.isSome = (paragraphs lines).getLast?.any Paragraph.isHeaded := by
    rw [← foldl_heldBehind lines, finish, Option.isSome_map]
    exact isSome_pending_feedAll lines (.ofProject p)
  rw [settled, ← held]
  cases hfinish : fed.2.finish.1 with
  | none => simpa [hfinish] using all
  | some o =>
      rw [hfinish] at all held
      obtain ⟨g, hlast, headed⟩ := (Option.any_eq_true _ _).1 held.symm
      obtain ⟨front, hgs⟩ := List.getLast?_eq_some_iff.1 hlast
      obtain ⟨d, hd⟩ : ∃ d, g.meaning? p = some d := by
        rw [Paragraph.isHeaded] at headed
        rw [Paragraph.meaning?]
        cases hline : Line.said g.head with
        | located | global => exact ⟨_, rfl⟩
        | phase | listed | noise => simp [hline, Line.isHeader] at headed
      rw [hgs, List.filterMap_append, List.filterMap_cons_some hd, List.filterMap_nil] at all
      rw [hgs, Option.isSome_some, if_pos rfl, List.dropLast_concat]
      exact (List.append_inj' all rfl).1

end Reader

end DiagnosticWatch.Compiler
