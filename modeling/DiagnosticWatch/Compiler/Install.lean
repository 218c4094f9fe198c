import DiagnosticWatch.FileTree
import DiagnosticWatch.Workspace.Basic

/-!
# Installed compilers

A project is compiled by the nearest compiler that is installed on the way from the project up to
the root of its workspace, and by the one of the system if there is none. Nothing above the
workspace root is ever looked at.
-/

namespace DiagnosticWatch.Compiler

def programName : Path := ⟨"tsc"⟩

/-- Where a directory keeps its own compiler. -/
def installedIn (dir : Path) : Path :=
  ((dir.join ⟨"node_modules"⟩).join ⟨".bin"⟩).join programName

/-- The first compiler that is installed in one of some directories, none behind the workspace
root. -/
def nearest? (tree : FileTree) (workspaceRoot : Path) : List Path → Option Path
  | [] => none
  | dir :: dirs =>
    if tree.isFile (installedIn dir) then some (installedIn dir)
    else if dir.same workspaceRoot then none
    else nearest? tree workspaceRoot dirs

def resolve (tree : FileTree) (workspaceRoot projectRoot : Path) : Path :=
  (nearest? tree workspaceRoot projectRoot.ancestors).getD programName

/-- The arguments with which the compiler of a project is started: it keeps running, prints plainly,
lists its files and takes the given configuration. -/
def arguments (p : Project) : List String :=
  ["--watch", "--preserveWatchOutput", "--pretty", "false", "--listFiles", "-p", p.configPath.text]

/-- Why no session could be opened for a project. -/
inductive OpenError
  | notStarted (program : Path)
  | refused (reason : String)
  deriving DecidableEq, Repr, Inhabited

def OpenError.message : OpenError → String
  | notStarted program => "failed to spawn " ++ program.text
  | refused reason => reason

/-- The compiler that starts for a project. It starts in the root of the project, which has to be
there. -/
def start? (tree : FileTree) (workspaceRoot : Path) (p : Project) : Except OpenError Path :=
  let program := resolve tree workspaceRoot p.root
  if tree.isExecutable program && tree.isDirectory p.root then .ok program
  else .error (.notStarted program)

end DiagnosticWatch.Compiler
