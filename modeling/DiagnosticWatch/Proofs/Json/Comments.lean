import DiagnosticWatch.Json.Comments
import DiagnosticWatch.Json.Scan
import Mathlib.Data.List.Infix

/-!
# What is left of a text with comments

A text with comments is made of pieces: strings, runs without quotation marks and slashes, and
comments. Stripping takes the pieces one by one, whatever the strings and the comments look like
inside: of a comment to the end of the line the line break is left, of a block comment nothing, of
everything else all.

A JSON text without comments has none of the pieces that are stripped, and what has been stripped of
its comments has none either. That holds of every text, also where a string or a comment does not
end: a slash that is left is not followed by a slash or a star, so nothing that comes together in
the result begins a comment.
-/

namespace DiagnosticWatch.Json

open Text (hexDigit?)

/-- What may stand between the quotation marks of a string. -/
inductive IsStringBody : List Char → Prop
  | nil : IsStringBody []
  | char {c : Char} {cs : List Char} (quote : c ≠ '"') (backslash : c ≠ '\\')
      (control : 0x20 ≤ c.toNat) (more : IsStringBody cs) : IsStringBody (c :: cs)
  | escape {c : Char} {cs : List Char} (known : c ∈ ['"', '\\', '/', 'b', 'f', 'n', 'r', 't'])
      (more : IsStringBody cs) : IsStringBody ('\\' :: c :: cs)
  | unicode {digits cs : List Char} (four : digits.length = 4)
      (hex : ∀ d ∈ digits, (hexDigit? d).isSome = true) (more : IsStringBody cs) :
      IsStringBody ('\\' :: 'u' :: (digits ++ cs))

def AreDigits (cs : List Char) : Prop :=
  cs ≠ [] ∧ ∀ c ∈ cs, c.isDigit = true

/-- A number: a sign, digits without a zero too many, a fraction and an exponent. -/
inductive IsNumber : List Char → Prop
  | mk {sign whole fraction exponent : List Char} (minus : sign = [] ∨ sign = ['-'])
      (digits : AreDigits whole) (zero : whole.head? = some '0' → whole = ['0'])
      (point : fraction = [] ∨ ∃ ds, AreDigits ds ∧ fraction = '.' :: ds)
      (power : exponent = [] ∨ ∃ e ∈ ['e', 'E'], ∃ s ∈ [[], ['+'], ['-']], ∃ ds, AreDigits ds ∧
        exponent = e :: (s ++ ds)) :
      IsNumber (sign ++ whole ++ fraction ++ exponent)

def AreSpaces (cs : List Char) : Prop :=
  ∀ c ∈ cs, isSpace c = true

/-- The parts of a JSON text. An element is a value with the blanks around it. -/
inductive Part
  | value
  | element
  | items
  | member
  | members

/-- How each part is written. -/
inductive IsPart : Part → List Char → Prop
  | word {cs : List Char} (known : cs ∈ ["null".toList, "true".toList, "false".toList]) :
      IsPart .value cs
  | number {cs : List Char} (digits : IsNumber cs) : IsPart .value cs
  | string {body : List Char} (letters : IsStringBody body) : IsPart .value ('"' :: body ++ ['"'])
  | emptyList {blanks : List Char} (spaces : AreSpaces blanks) :
      IsPart .value ('[' :: blanks ++ [']'])
  | list {cs : List Char} (inside : IsPart .items cs) : IsPart .value ('[' :: cs ++ [']'])
  | emptyObject {blanks : List Char} (spaces : AreSpaces blanks) :
      IsPart .value ('{' :: blanks ++ ['}'])
  | object {cs : List Char} (inside : IsPart .members cs) : IsPart .value ('{' :: cs ++ ['}'])
  | element {before cs after : List Char} (left : AreSpaces before) (inside : IsPart .value cs)
      (right : AreSpaces after) : IsPart .element (before ++ cs ++ after)
  | lastItem {cs : List Char} (item : IsPart .element cs) : IsPart .items cs
  | item {cs more : List Char} (item : IsPart .element cs) (others : IsPart .items more) :
      IsPart .items (cs ++ ',' :: more)
  | pair {before name after cs : List Char} (left : AreSpaces before) (letters : IsStringBody name)
      (right : AreSpaces after) (value : IsPart .element cs) :
      IsPart .member (before ++ ('"' :: name ++ ['"']) ++ after ++ ':' :: cs)
  | lastMember {cs : List Char} (member : IsPart .member cs) : IsPart .members cs
  | member {cs more : List Char} (member : IsPart .member cs) (others : IsPart .members more) :
      IsPart .members (cs ++ ',' :: more)

def IsText (text : String) : Prop :=
  IsPart .element text.toList

/-- A piece of a text with comments. -/
inductive Piece
  | string (body : List Char) (letters : IsStringBody body)
  | run (chars : List Char) (quiet : ∀ c ∈ chars, c ≠ '"' ∧ c ≠ '/')
  | lineComment (inside : List Char) (single : '\n' ∉ inside)
  | blockComment (inside : List Char) (whole : ¬['*', '/'] <:+: inside)

namespace Piece

def written : Piece → List Char
  | string body _ => '"' :: body ++ ['"']
  | run chars _ => chars
  | lineComment inside _ => '/' :: '/' :: inside ++ ['\n']
  | blockComment inside _ => '/' :: '*' :: inside ++ ['*', '/']

def kept : Piece → List Char
  | lineComment _ _ => ['\n']
  | blockComment _ _ => []
  | p => p.written

end Piece

/-- Digits in a string are copied. -/
theorem stripFrom_digits {digits : List Char} (hex : ∀ d ∈ digits, (hexDigit? d).isSome = true)
    (rest : List Char) : stripFrom .string (digits ++ rest) = digits ++ stripFrom .string rest := by
  induction digits with
  | nil => rfl
  | cons d ds ih =>
      obtain ⟨digit, hex⟩ := List.forall_mem_cons.1 hex
      have quote : d ≠ '"' := by
        rintro rfl
        exact absurd digit (by decide)
      have backslash : d ≠ '\\' := by
        rintro rfl
        exact absurd digit (by decide)
      rw [List.cons_append, stripFrom_string_cons quote backslash, ih hex, List.cons_append]

/-- A string is copied up to its end, whatever is behind it. -/
theorem stripFrom_string_body {body : List Char} (letters : IsStringBody body) (rest : List Char) :
    stripFrom .string (body ++ '"' :: rest) = body ++ '"' :: stripFrom .code rest := by
  induction letters with
  | nil => rfl
  | char quote backslash _ _ ih =>
      rw [List.cons_append, stripFrom_string_cons quote backslash, ih, List.cons_append]
  | escape _ _ ih => simp only [List.cons_append, stripFrom, ih]
  | unicode _ hex _ ih =>
      simp only [List.cons_append, List.append_assoc, stripFrom, stripFrom_digits hex, ih]

/-- A comment to the end of the line leaves the line break. -/
theorem stripFrom_line {inside : List Char} (single : '\n' ∉ inside) (rest : List Char) :
    stripFrom .line (inside ++ '\n' :: rest) = '\n' :: stripFrom .code rest := by
  induction inside with
  | nil => rfl
  | cons c cs ih =>
      obtain ⟨other, single⟩ : '\n' ≠ c ∧ '\n' ∉ cs := by simpa using single
      rw [List.cons_append, stripFrom, ih single]
      rintro rfl
      exact other rfl

/-- A block comment ends with the first star that has a slash behind it. Behind a star of the
comment the rest of it must not begin with a slash. -/
theorem stripFrom_block {inside : List Char} (whole : ¬['*', '/'] <:+: inside) {starred : Bool}
    (apart : starred = true → inside.head? ≠ some '/') (rest : List Char) :
    stripFrom (.block starred) (inside ++ '*' :: '/' :: rest) = stripFrom .code rest := by
  induction inside generalizing starred with
  | nil => cases starred <;> simp [stripFrom]
  | cons c cs ih =>
      have next : stripFrom (.block starred) (c :: (cs ++ '*' :: '/' :: rest)) =
          stripFrom (.block (c == '*')) (cs ++ '*' :: '/' :: rest) := by
        rw [stripFrom]
        rintro rfl rfl
        exact apart rfl rfl
      rw [List.cons_append, next]
      apply ih fun h => whole (h.trans (List.suffix_cons c cs).isInfix)
      intro star slash
      obtain rfl : c = '*' := by simpa using star
      obtain ⟨more, rfl⟩ := List.head?_eq_some_iff.1 slash
      exact whole ⟨[], more, rfl⟩

/-- A text that stripping leaves as it is, whatever is behind it. -/
def Bare (cs : List Char) : Prop :=
  ∀ rest, stripFrom .code (cs ++ rest) = cs ++ stripFrom .code rest

namespace Bare

theorem append {cs ds : List Char} (h : Bare cs) (h' : Bare ds) : Bare (cs ++ ds) := by
  intro rest
  rw [List.append_assoc, h, h', List.append_assoc]

theorem run {cs : List Char} (quiet : ∀ c ∈ cs, c ≠ '"' ∧ c ≠ '/') : Bare cs := by
  intro rest
  induction cs with
  | nil => rfl
  | cons c cs ih =>
      obtain ⟨⟨quote, slash⟩, quiet⟩ := List.forall_mem_cons.1 quiet
      rw [List.cons_append, stripFrom_code_cons quote slash, ih quiet, List.cons_append]

theorem string {body : List Char} (letters : IsStringBody body) : Bare ('"' :: body ++ ['"']) := by
  intro rest
  rw [List.append_assoc, List.cons_append, stripFrom, List.singleton_append,
    stripFrom_string_body letters]
  simp

theorem single {c : Char} (quiet : c ≠ '"' ∧ c ≠ '/') : Bare [c] :=
  run (by simpa using quiet)

theorem enclosed {first last : Char} {cs : List Char} (h : Bare cs)
    (left : first ≠ '"' ∧ first ≠ '/') (right : last ≠ '"' ∧ last ≠ '/') :
    Bare (first :: cs ++ [last]) :=
  ((single left).append h).append (single right)

theorem separated {c : Char} {cs ds : List Char} (h : Bare cs) (h' : Bare ds)
    (quiet : c ≠ '"' ∧ c ≠ '/') : Bare (cs ++ c :: ds) :=
  h.append ((single quiet).append h')

end Bare

/-- What stripping makes of one piece, whatever is behind it. -/
theorem stripFrom_written (p : Piece) (rest : List Char) :
    stripFrom .code (p.written ++ rest) = p.kept ++ stripFrom .code rest := by
  cases p with
  | string body letters => exact Bare.string letters rest
  | run chars quiet => exact Bare.run quiet rest
  | lineComment inside single =>
      simp only [Piece.written, Piece.kept, List.cons_append, List.append_assoc, List.nil_append,
        stripFrom, stripFrom_line single]
  | blockComment inside whole =>
      have taken : stripFrom (.block false) (inside ++ '*' :: '/' :: rest) = stripFrom .code rest :=
        stripFrom_block whole (by simp) rest
      simp only [Piece.written, Piece.kept, List.cons_append, List.append_assoc, List.nil_append,
        stripFrom, taken]

theorem stripFrom_pieces (ps : List Piece) :
    stripFrom .code (ps.flatMap Piece.written) = ps.flatMap Piece.kept := by
  induction ps with
  | nil => rfl
  | cons p ps ih => rw [List.flatMap_cons, stripFrom_written, ih, List.flatMap_cons]

theorem AreDigits.quiet {cs : List Char} (h : AreDigits cs) : ∀ c ∈ cs, c ≠ '"' ∧ c ≠ '/' := by
  intro c hc
  have digit := h.2 c hc
  constructor <;> rintro rfl <;> cases digit

theorem AreSpaces.quiet {cs : List Char} (h : AreSpaces cs) : ∀ c ∈ cs, c ≠ '"' ∧ c ≠ '/' := by
  intro c hc
  have space := h c hc
  constructor <;> rintro rfl <;> cases space

theorem IsNumber.quiet {cs : List Char} (h : IsNumber cs) : ∀ c ∈ cs, c ≠ '"' ∧ c ≠ '/' := by
  cases h with
  | mk minus digits zero point power =>
      simp only [List.forall_mem_append]
      refine ⟨⟨⟨?_, digits.quiet⟩, ?_⟩, ?_⟩
      · obtain rfl | rfl := minus <;> simp
      · obtain rfl | ⟨ds, more, rfl⟩ := point
        · simp
        · exact List.forall_mem_cons.2 ⟨by decide, more.quiet⟩
      · obtain rfl | ⟨e, he, s, hs, ds, more, rfl⟩ := power
        · simp
        · have letter : ∀ e ∈ ['e', 'E'], e ≠ '"' ∧ e ≠ '/' := by simp
          have sign : ∀ s ∈ [[], ['+'], ['-']], ∀ c ∈ s, c ≠ '"' ∧ c ≠ '/' := by simp
          exact List.forall_mem_cons.2
            ⟨letter e he, List.forall_mem_append.2 ⟨sign s hs, more.quiet⟩⟩

/-- No part of a JSON text has a comment in it. -/
theorem IsPart.bare {part : Part} {cs : List Char} (h : IsPart part cs) : Bare cs := by
  induction h with
  | word known =>
      have quiet : ∀ cs ∈ ["null".toList, "true".toList, "false".toList],
          ∀ c ∈ cs, c ≠ '"' ∧ c ≠ '/' := by simp
      exact .run (quiet _ known)
  | number digits => exact .run digits.quiet
  | string letters => exact .string letters
  | emptyList spaces | emptyObject spaces =>
      exact .enclosed (.run spaces.quiet) (by decide) (by decide)
  | list _ ih | object _ ih => exact .enclosed ih (by decide) (by decide)
  | element left _ right ih => exact ((Bare.run left.quiet).append ih).append (.run right.quiet)
  | lastItem _ ih | lastMember _ ih => exact ih
  | item _ _ ih ih' | member _ _ ih ih' => exact .separated ih ih' (by decide)
  | pair left letters right _ ih =>
      have name := ((Bare.run left.quiet).append (.string letters)).append (.run right.quiet)
      exact .separated name ih (by decide)

/-- A character that begins neither a string nor a comment comes first in what is left. -/
theorem head?_stripFrom {c : Char} (slash : c ≠ '/') (cs : List Char) :
    (stripFrom .code (c :: cs)).head? = some c := by
  by_cases quote : c = '"'
  · subst quote
    rfl
  · rw [stripFrom_code_cons quote slash]
    rfl

/-- Where a reader stands in what is left of a text: comments are gone. -/
def CommentMode.stripped : CommentMode → CommentMode
  | .string => .string
  | _ => .code

/-- A slash that is left between strings is not followed by what would make it begin a comment. -/
theorem stripFrom_slash {cs : List Char} (h : cs.head? ≠ some '/') (h' : cs.head? ≠ some '*') :
    stripFrom .code ('/' :: cs) = '/' :: stripFrom .code cs := by
  rw [stripFrom]
  · decide
  · rintro more - rfl
    exact h rfl
  · rintro more - rfl
    exact h' rfl

/-- What has been stripped is left as it is when it is stripped again. -/
theorem stripFrom_stripFrom (mode : CommentMode) (cs : List Char) :
    stripFrom mode.stripped (stripFrom mode cs) = stripFrom mode cs := by
  fun_induction stripFrom mode cs with
  | case1 mode => cases mode <;> rfl
  | case2 cs ih => exact congrArg (List.cons '"') ih
  | case5 c cs quote line block ih =>
      by_cases slash : c = '/'
      · subst slash
        -- What comes behind the slash is not taken out, so it is still there behind it.
        have behind : ∀ d : Char, d ∈ ['/', '*'] → (stripFrom .code cs).head? ≠ some d := by
          intro d hd
          cases cs with
          | nil => simp [stripFrom]
          | cons e cs =>
              have other : e ≠ '/' := fun h => line cs rfl (h ▸ rfl)
              rw [head?_stripFrom other]
              rintro h
              obtain rfl := Option.some.inj h
              obtain rfl : e = '*' := by simpa [other] using hd
              exact block cs rfl rfl
        show stripFrom .code ('/' :: stripFrom .code cs) = _
        rw [stripFrom_slash (behind _ (by decide)) (behind _ (by decide))]
        exact congrArg (List.cons '/') ih
      · show stripFrom .code (c :: stripFrom .code cs) = _
        rw [stripFrom_code_cons quote slash]
        exact congrArg (List.cons c) ih
  | case6 cs ih => exact congrArg (List.cons '"') ih
  | case7 c cs ih => exact congrArg (fun rest => '\\' :: c :: rest) ih
  | case8 c cs quote last ih =>
      by_cases backslash : c = '\\'
      · -- A backslash at the end of the text escapes nothing.
        subst backslash
        cases cs with
        | nil => rfl
        | cons d cs => exact absurd rfl (last d cs rfl)
      · show stripFrom .string (c :: stripFrom .string cs) = _
        rw [stripFrom_string_cons quote backslash]
        exact congrArg (List.cons c) ih
  | case9 cs ih => exact congrArg (List.cons '\n') ih
  | case3 cs ih | case4 cs ih | case10 c cs _ ih | case11 cs ih | case12 _ c cs _ ih => exact ih

/-- Stripping a text that is made of pieces keeps strings and runs as they are, leaves a line break
for each comment to the end of the line and nothing for a block comment. JSON texts are left as they
are, and so is every text that has been stripped before. -/
theorem stripComments_exact :
    (∀ ps : List Piece, stripComments (String.ofList (ps.flatMap Piece.written)) =
      String.ofList (ps.flatMap Piece.kept)) ∧
    (∀ text, IsText text → stripComments text = text) ∧
    ∀ text, stripComments (stripComments text) = stripComments text := by
  refine ⟨fun ps => ?_, fun text valid => ?_, fun text => ?_⟩
  · rw [stripComments, String.toList_ofList, stripFrom_pieces]
  · have bare := valid.bare []
    rw [List.append_nil] at bare
    rw [stripComments, bare]
    simp [stripFrom]
  · rw [stripComments, stripComments, String.toList_ofList]
    exact congrArg String.ofList (stripFrom_stripFrom .code text.toList)

/-- Both a name and an item of a list look like the beginning of a comment. -/
def markers : String :=
  "\x7b \"//\": [\"/*\\\"\", -10] \x7d"

theorem isText_markers : IsText markers := by
  have blank : AreSpaces [' '] := by simp [AreSpaces, isSpace]
  have none : AreSpaces [] := by simp [AreSpaces]
  have name : IsStringBody ['/', '/'] :=
    .char (by decide) (by decide) (by decide) (.char (by decide) (by decide) (by decide) .nil)
  have item : IsStringBody ['/', '*', '\\', '"'] :=
    .char (by decide) (by decide) (by decide)
      (.char (by decide) (by decide) (by decide) (.escape (by decide) .nil))
  have number : IsNumber (['-'] ++ ['1', '0'] ++ [] ++ []) :=
    .mk (.inr rfl) ⟨by simp, by simp⟩ (by decide) (.inl rfl) (.inl rfl)
  have items := IsPart.item (.element none (.string item) none)
    (.lastItem (.element blank (.number number) none))
  have member := IsPart.pair blank name none (.element blank (.list items) blank)
  exact .element none (.object (.lastMember member)) none

/-- Comments that begin with a slash or end in stars, and one that is opened again. -/
def comments : List Piece :=
  [.run "1".toList (by simp), .blockComment "/*".toList (by decide),
    .string "/*".toList
      (.char (by decide) (by decide) (by decide) (.char (by decide) (by decide) (by decide) .nil)),
    .blockComment "**".toList (by decide), .lineComment "*/".toList (by decide)]

theorem stripComments_exact_markers :
    (IsText markers ∧ stripComments markers = markers) ∧
      stripComments "1/*/**/\"/*\"/****///*/\n" = "1\"/*\"\n" := by
  obtain ⟨pieces, texts, -⟩ := stripComments_exact
  exact ⟨⟨isText_markers, texts markers isText_markers⟩, pieces comments⟩

end DiagnosticWatch.Json
