import DiagnosticWatch.Text.Printable

/-!
# Quoted texts

Two ways of writing a text between quotation marks on one line. The *shown* form is for error
messages and makes every character visible; the *interchange* form is that of JSON and escapes only
what JSON cannot hold.
-/

namespace DiagnosticWatch.Text

def hex (n : Nat) : List Char :=
  Nat.toDigits 16 n

/-- A number in hexadecimal with four digits at least. -/
def hex4 (n : Nat) : List Char :=
  let ds := hex n
  List.replicate (4 - ds.length) '0' ++ ds

namespace Shown

/-- How one character is shown. -/
def escape (c : Char) : List Char :=
  if c = '\x00' then ['\\', '0']
  else if c = '\t' then ['\\', 't']
  else if c = '\r' then ['\\', 'r']
  else if c = '\n' then ['\\', 'n']
  else if c = '"' then ['\\', '"']
  else if c = '\\' then ['\\', '\\']
  else if isPrintable c then [c]
  else ['\\', 'u', '{'] ++ hex c.toNat ++ ['}']

/-- A text as error messages show it. -/
def quote (s : String) : String :=
  String.ofList ('"' :: s.toList.flatMap escape ++ ['"'])

end Shown

namespace Interchange

/-- How one character is written inside a JSON text. -/
def escape (c : Char) : List Char :=
  if c = '"' then ['\\', '"']
  else if c = '\\' then ['\\', '\\']
  else if c = '\x08' then ['\\', 'b']
  else if c = '\t' then ['\\', 't']
  else if c = '\n' then ['\\', 'n']
  else if c = '\x0c' then ['\\', 'f']
  else if c = '\r' then ['\\', 'r']
  else if c.toNat < 0x20 then ['\\', 'u'] ++ hex4 c.toNat
  else [c]

/-- A text as JSON writes it. -/
def quote (s : String) : List Char :=
  '"' :: s.toList.flatMap escape ++ ['"']

end Interchange

end DiagnosticWatch.Text
