import DiagnosticWatch.Command.Report
import DiagnosticWatch.Command.Site
import DiagnosticWatch.Daemon.Server

/-!
# Running commands

Two of the commands look at the files of their site. All others send one request to the daemon of
the workspace root; where none listens, they fail and change nothing.
-/

namespace DiagnosticWatch

namespace Daemon

def ofWorkspace (tree : FileTree) (root : Path) (config : WatchConfig) (w : Workspace) : Daemon :=
  launch (.create w config (.ofTree tree root))

/-- Whether a daemon answers requests for a workspace root. -/
def listensAt (d : Daemon) (root : Path) : Bool :=
  d.running && (socketPath d.watcher.workspace.root).same (socketPath root)

/-- Sends a request as one line and reads the line that comes back. -/
def ask (d : Daemon) (now : Nat) (r : Request) : Option Response × Daemon :=
  let (response, d) := d.take now (.line (some (messageLine r.toJson)) true)
  (response.bind fun r => (Response.parse (messageLine r.toJson)).toOption, d)

end Daemon

namespace Command

def request? (s : Site) : Command → Option Request
  | start => none
  | stop => some .shutdown
  | status => some .status
  | check file => some (.hasErrors (file.map s.fileOf))
  | errors => some .allDiagnostics
  | package name => some (.packageDiagnostics name)
  | count => some .count
  | clear none => some .clearAll
  | clear (some file) => some (.clearFile (s.fileOf file))
  | cacheStats => some .cacheStats
  | workspace => none

end Command

namespace Invocation

def notRunning : Outcome :=
  .failed "daemon not running (run \x60tscd start\x60)"

/-- Starts a daemon in place of the one that runs. -/
def runStart (s : Site) (root : Path) (daemon : Option Daemon) : Outcome × Option Daemon :=
  match s.workspaceAt root with
  | .error e => (.failed e.message, daemon)
  | .ok (config, w) =>
    (.ofLines
      ["🚀 Starting tscd for " ++ toString w.projects.length ++ " project(s) in " ++ root.text] 0,
      some (.ofWorkspace s.tree root config w))

def runWorkspace (s : Site) (root : Path) (json : Bool) : Outcome :=
  match s.workspaceAt root with
  | .error e => .failed e.message
  | .ok (_, w) =>
    .ofLines
      (if json then [w.toJson.renderPretty] else w.report fun p => s.tree.isFile p.configPath) 0

def runRequest (i : Invocation) (root : Path) (daemon : Option Daemon) (now : Nat) (r : Request) :
    Outcome × Option Daemon :=
  match daemon with
  | none => (notRunning, none)
  | some d =>
    if !d.listensAt root then (notRunning, some d)
    else match d.ask now r with
      | (none, d) => (notRunning, some d)
      | (some (.error message), d) => (.failed ("daemon error: " ++ message), some d)
      | (some response, d) =>
        (if i.json then .ofJson response else i.command.report response, some d)

/-- Runs a command: what it leaves behind, and the daemon after it. -/
def run (i : Invocation) (s : Site) (daemon : Option Daemon) (now : Nat) :
    Outcome × Option Daemon :=
  let root := s.rootOf i.root
  match i.command.request? s with
  | some r => i.runRequest root daemon now r
  | none =>
    if i.command = .start then runStart s root daemon
    else (runWorkspace s root i.json, daemon)

end Invocation

namespace CommandLine

def versionText : String := "tscd 0.1.0\n"

def usageText : String :=
  Outcome.linesText
    ["Usage: tscd [--root <ROOT>] [--json] <COMMAND>",
      "",
      "Commands:",
      "  start           run the daemon in the foreground",
      "  stop            stop the daemon",
      "  status          show what is watched",
      "  check [FILE]    tell whether there are errors, in a file or at all",
      "  errors          print all diagnostics",
      "  package <NAME>  print the diagnostics of a package",
      "  count           count errors, warnings and suggestions",
      "  clear [FILE]    forget the diagnostics of a file, or all of them",
      "  cache-stats     show cache statistics",
      "  workspace       show the detected workspace"]

def run (args : List String) (s : Site) (daemon : Option Daemon) (now : Nat) :
    Outcome × Option Daemon :=
  match parse args with
  | .error e => ({ code := 2, errors := "error: " ++ e.message ++ "\n\n" ++ usageText }, daemon)
  | .ok .version => ({ output := versionText }, daemon)
  | .ok .help => ({ output := usageText }, daemon)
  | .ok (.invoke i) => i.run s daemon now

end CommandLine

end DiagnosticWatch
