import DiagnosticWatch.Command.Basic
import DiagnosticWatch.Daemon.Message

/-!
# Reports

What the answers of a daemon look like on a terminal, line by line. A diagnostic is printed in the
form in which compilers print it, so the lines of a report can be read like compiler output.
-/

namespace DiagnosticWatch

/-- The diagnostics of a result, a blank line and the totals. -/
def Result.report (r : Result) : List String :=
  r.diagnostics.map Diagnostic.render ++
    ["", r.source ++ ": " ++ toString r.totalErrors ++ " error(s), " ++
      toString r.totalWarnings ++ " warning(s), " ++ toString r.totalSuggestions ++
      " suggestion(s), " ++ toString r.totalMessages ++ " message(s)"]

def Count.report (c : Count) : List String :=
  [toString c.errors ++ " error(s), " ++ toString c.warnings ++ " warning(s), " ++
    toString c.suggestions ++ " suggestion(s)"]

/-- A status with one line for each project. -/
def WatchStatus.report (s : WatchStatus) : List String :=
  let last := match s.lastCompilation with
    | some time => toString time ++ " ms since epoch"
    | none => "never"
  ["📊 Daemon Status:",
    "   Active: " ++ (if s.active then "true" else "false"),
    "   Mode: " ++ s.mode.title,
    "   Projects: " ++ toString s.watchedProjects,
    "   Files: " ++ toString s.watchedFiles,
    "   Last compilation: " ++ last] ++
  s.projects.map fun p => "   • " ++ p.name ++ " (" ++ p.id ++ ") " ++ p.state.title

/-- The numbers of a cache; the hit rate is a percentage with one decimal place. -/
def CacheStats.report (s : CacheStats) : List String :=
  ["📊 Cache:",
    "   Size: " ++ toString s.size ++ "/" ++ toString s.capacity,
    "   Hits: " ++ toString s.hits ++ "  Misses: " ++ toString s.misses,
    "   Hit rate: " ++ Decimal.fixed 1 (s.hitRate * 100) ++ "%",
    "   Evictions: " ++ toString s.evictions]

/-- A workspace with one line for each project, which tells whether its configuration is there. -/
def Workspace.report (w : Workspace) (hasConfig : Project → Bool) : List String :=
  ("📦 " ++ w.kind.label ++ " workspace (" ++ toString w.projects.length ++ " projects)") ::
    w.projects.map fun p =>
      "   " ++ (if hasConfig p then "✓" else "✗") ++ " " ++ p.name ++ " (" ++ p.id ++ ")"

/-- What a command leaves behind: its exit code and what it wrote to the two streams. -/
structure Outcome where
  code : UInt8 := 0
  output : String := ""
  errors : String := ""
  deriving DecidableEq, Repr, Inhabited

namespace Outcome

/-- Lines of text, each with a line feed at its end. -/
def linesText (ls : List String) : String :=
  ls.foldl (fun text l => text ++ l ++ "\n") ""

def ofLines (ls : List String) (code : UInt8) : Outcome :=
  { code, output := linesText ls }

def failed (message : String) : Outcome :=
  { code := 1, errors := "Error: " ++ message ++ "\n" }

/-- A response as indented JSON. The exit code still tells whether there are errors. -/
def ofJson (r : Response) : Outcome :=
  let code : UInt8 := match r with
    | .hasErrors true => 1
    | _ => 0
  ofLines [r.toJson.renderPretty] code

end Outcome

namespace Command

/-- What a command shows of the response to it. Codes other than zero tell that there are errors, or
that a package is not known. -/
def report (c : Command) (r : Response) : Outcome :=
  match c, r with
  | stop, _ => .ofLines ["✅ Daemon stopped"] 0
  | status, .status s => .ofLines s.report 0
  | check _, .hasErrors true => .ofLines ["❌ Errors found"] 1
  | check _, .hasErrors false => .ofLines ["✅ No errors"] 0
  | errors, .diagnostics result => .ofLines result.report 0
  | package _, .package (some result) => .ofLines result.report 0
  | package name, .package none => .ofLines ["❌ Package '" ++ name ++ "' not found"] 2
  | count, .count n => .ofLines n.report 0
  | clear _, .cleared true => .ofLines ["🗑️  Cleared"] 0
  | clear _, .cleared false => .ofLines ["Nothing to clear"] 0
  | cacheStats, .cacheStats s => .ofLines s.report 0
  | _, r => { errors := "Unexpected response: " ++ messageLine r.toJson }

end Command

end DiagnosticWatch
