/-!
# Comments in JSON texts

Some manifests are JSON texts with comments: `//` up to the end of the line and `/*` up to `*/`.
Outside strings comments are taken out before the text is read; the line break behind a comment
stays.
-/

namespace DiagnosticWatch.Json

/-- Where in a text with comments a reader stands. In a block comment `starred` says that the last
character was a star of that comment. -/
inductive CommentMode
  | code
  | string
  | line
  | block (starred : Bool)
  deriving DecidableEq, Repr, Inhabited

def stripFrom : CommentMode → List Char → List Char
  | _, [] => []
  | .code, '"' :: cs => '"' :: stripFrom .string cs
  | .code, '/' :: '/' :: cs => stripFrom .line cs
  | .code, '/' :: '*' :: cs => stripFrom (.block false) cs
  | .code, c :: cs => c :: stripFrom .code cs
  | .string, '"' :: cs => '"' :: stripFrom .code cs
  | .string, '\\' :: c :: cs => '\\' :: c :: stripFrom .string cs
  | .string, c :: cs => c :: stripFrom .string cs
  | .line, '\n' :: cs => '\n' :: stripFrom .code cs
  | .line, _ :: cs => stripFrom .line cs
  | .block true, '/' :: cs => stripFrom .code cs
  | .block _, c :: cs => stripFrom (.block (c == '*')) cs

/-- Between comments and strings, a character that begins neither is left as it is. -/
theorem stripFrom_code_cons {c : Char} (quote : c ≠ '"') (slash : c ≠ '/') (cs : List Char) :
    stripFrom .code (c :: cs) = c :: stripFrom .code cs := by
  rw [stripFrom]
  · exact quote
  · rintro _ rfl
    exact absurd rfl slash
  · rintro _ rfl
    exact absurd rfl slash

/-- In a string, a character that neither ends it nor escapes another is copied. -/
theorem stripFrom_string_cons {c : Char} (quote : c ≠ '"') (backslash : c ≠ '\\') (cs : List Char) :
    stripFrom .string (c :: cs) = c :: stripFrom .string cs := by
  rw [stripFrom]
  · exact quote
  · rintro _ _ rfl
    exact absurd rfl backslash

/-- A text without its comments. -/
def stripComments (text : String) : String :=
  String.ofList (stripFrom .code text.toList)

end DiagnosticWatch.Json
