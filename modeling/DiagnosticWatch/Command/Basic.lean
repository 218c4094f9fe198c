import DiagnosticWatch.Path

/-!
# Commands

What a user can ask for on a command line. Arguments are read from left to right: options hold
wherever they stand, the first argument that is no option names the command, and `--` ends the
options. Whatever comes first decides, so `--version` is answered even if the arguments behind it
make no sense.
-/

namespace DiagnosticWatch

inductive Command
  | start
  | stop
  | status
  | check (file : Option Path)
  | errors
  | package (name : String)
  | count
  | clear (file : Option Path)
  | cacheStats
  | workspace
  deriving DecidableEq, Repr, Inhabited

/-- A command and the options that hold for it. -/
structure Invocation where
  command : Command
  root : Option Path := none
  json : Bool := false
  deriving DecidableEq, Repr, Inhabited

inductive CommandLine
  | invoke (i : Invocation)
  | version
  | help
  deriving DecidableEq, Repr, Inhabited

inductive UsageError
  | missingCommand
  | unknownCommand (name : String)
  | unknownOption (name : String)
  | missingValue (option : String)
  | unexpectedValue (option : String)
  | repeated (option : String)
  | missingOperand (operand : String)
  | extraOperand (text : String)
  deriving DecidableEq, Repr, Inhabited

namespace UsageError

def message : UsageError → String
  | missingCommand => "a command is required"
  | unknownCommand name => "unknown command '" ++ name ++ "'"
  | unknownOption name => "unknown option '" ++ name ++ "'"
  | missingValue option => "a value is required for '" ++ option ++ "'"
  | unexpectedValue option => "'" ++ option ++ "' takes no value"
  | repeated option => "'" ++ option ++ "' is given more than once"
  | missingOperand operand => "the operand <" ++ operand ++ "> is required"
  | extraOperand text => "unexpected operand '" ++ text ++ "'"

end UsageError

/-- What an argument means to the reader of a command line. A `literal` stands behind `--`. -/
inductive Argument
  | operand (text : String)
  | literal (text : String)
  | root (path : String)
  | json
  | version
  | help
  | invalid (e : UsageError)
  deriving DecidableEq, Repr, Inhabited

namespace Argument

/-- The form of an argument: `--`, an option with two dashes and perhaps a value behind `=`, letters
behind one dash, or anything else, which includes a dash on its own. -/
inductive Form
  | separator
  | long (name : String) (value : Option String)
  | short (letters : List Char)
  | plain
  deriving DecidableEq, Repr

def form (text : String) : Form :=
  match text.toList with
  | ['-', '-'] => .separator
  | '-' :: '-' :: cs =>
    .long (String.ofList (cs.takeWhile (· ≠ '='))) <|
      match cs.dropWhile (· ≠ '=') with
      | [] => none
      | _ :: value => some (String.ofList value)
  | '-' :: c :: cs => .short (c :: cs)
  | _ => .plain

def ofLetter : Char → Argument
  | 'h' => help
  | 'V' => version
  | c => invalid (.unknownOption (String.ofList ['-', c]))

/-- An option that takes no value. -/
def switch (name : String) (value : Option String) : Argument :=
  match name with
  | "json" => given json
  | "version" => given version
  | "help" => given help
  | _ => invalid (.unknownOption ("--" ++ name))
where
  given (a : Argument) : Argument :=
    if value.isSome then invalid (.unexpectedValue ("--" ++ name)) else a

/-- The value of `--root` must not be empty. -/
def ofRoot (value : String) : Argument :=
  if value.isEmpty then invalid (.missingValue "--root") else root value

/-- The arguments of a command line. The value of `--root` stands behind `=` or is the next
argument, unless that one looks like an option. -/
def read : List String → List Argument
  | [] => []
  | text :: rest =>
    match form text with
    | .separator => rest.map literal
    | .plain => operand text :: read rest
    | .short letters => letters.map ofLetter ++ read rest
    | .long "root" (some value) => ofRoot value :: read rest
    | .long "root" none =>
      match rest with
      | value :: rest =>
        if form value = .plain then ofRoot value :: read rest
        else [invalid (.missingValue "--root")]
      | [] => [invalid (.missingValue "--root")]
    | .long name value => switch name value :: read rest

end Argument

structure Options where
  root : Option String := none
  json : Bool := false
  deriving DecidableEq, Repr, Inhabited

namespace Options

def withRoot (o : Options) (path : String) : Except UsageError Options :=
  if o.root.isSome then .error (.repeated "--root") else .ok { o with root := some path }

def withJson (o : Options) : Except UsageError Options :=
  if o.json then .error (.repeated "--json") else .ok { o with json := true }

/-- The options in front of a command joined with those behind it, which win. -/
def orElse (behind front : Options) : Options :=
  { root := behind.root.or front.root, json := behind.json || front.json }

end Options

/-- A command that may still take an operand. -/
inductive OpenCommand
  | complete (c : Command)
  | perhapsFile (make : Option Path → Command)
  | needsName (make : String → Command)

namespace OpenCommand

def named? : String → Option OpenCommand
  | "start" => some (complete .start)
  | "stop" => some (complete .stop)
  | "status" => some (complete .status)
  | "check" => some (perhapsFile .check)
  | "errors" => some (complete .errors)
  | "package" => some (needsName .package)
  | "count" => some (complete .count)
  | "clear" => some (perhapsFile .clear)
  | "cache-stats" => some (complete .cacheStats)
  | "workspace" => some (complete .workspace)
  | _ => none

/-- Takes an operand. A file must not be the empty text, a name may be. -/
def take (text : String) : OpenCommand → Except UsageError OpenCommand
  | complete _ => .error (.extraOperand text)
  | perhapsFile make =>
    if text.isEmpty then .error (.missingOperand "FILE") else .ok (complete (make (some ⟨text⟩)))
  | needsName make => .ok (complete (make text))

/-- The command when no more operands follow. -/
def finish : OpenCommand → Except UsageError Command
  | complete c => .ok c
  | perhapsFile make => .ok (make none)
  | needsName _ => .error (.missingOperand "NAME")

/-- Reads the arguments behind the name of a command; `front` are the options in front of it. -/
def readRest (front : Options) :
    Options → OpenCommand → List Argument → Except UsageError CommandLine
  | o, c, [] => do
    let o := o.orElse front
    return .invoke { command := ← c.finish, root := o.root.map Path.mk, json := o.json }
  | o, c, .operand text :: rest => do readRest front o (← c.take text) rest
  | o, c, .literal text :: rest => do readRest front o (← c.take text) rest
  | o, c, .root path :: rest => do readRest front (← o.withRoot path) c rest
  | o, c, .json :: rest => do readRest front (← o.withJson) c rest
  | _, _, .version :: _ => .error (.unknownOption "--version")
  | _, _, .help :: _ => .ok .help
  | _, _, .invalid e :: _ => .error e

end OpenCommand

namespace CommandLine

/-- Reads arguments up to the name of the command. -/
def readFront : Options → List Argument → Except UsageError CommandLine
  | _, [] => .error .missingCommand
  | o, .operand name :: rest =>
    match OpenCommand.named? name with
    | some c => OpenCommand.readRest o {} c rest
    | none => if name = "help" then .ok help else .error (.unknownCommand name)
  | _, .literal text :: _ => .error (.extraOperand text)
  | o, .root path :: rest => do readFront (← o.withRoot path) rest
  | o, .json :: rest => do readFront (← o.withJson) rest
  | _, .version :: _ => .ok version
  | _, .help :: _ => .ok help
  | _, .invalid e :: _ => .error e

def parse (args : List String) : Except UsageError CommandLine :=
  readFront {} (Argument.read args)

end CommandLine

end DiagnosticWatch
