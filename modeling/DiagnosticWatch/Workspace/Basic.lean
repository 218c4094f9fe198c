import DiagnosticWatch.Path

/-!
# Workspaces

A workspace is a root directory with the projects below it that are compiled on their own. Its kind
says which tool declared the projects; without such a declaration there is one project at the root.
-/

namespace DiagnosticWatch

/-- The tool whose declaration lists the projects. -/
inductive WorkspaceKind
  | single
  | pnpm
  | npm
  | rush
  | lerna
  deriving DecidableEq, Repr, Inhabited

namespace WorkspaceKind

def label : WorkspaceKind → String
  | single => "single"
  | pnpm => "pnpm"
  | npm => "npm"
  | rush => "rush"
  | lerna => "lerna"

def all : List WorkspaceKind := [single, pnpm, npm, rush, lerna]

end WorkspaceKind

/-- Whether one project is watched or several. -/
inductive WatchMode
  | single
  | monorepo
  deriving DecidableEq, Repr, Inhabited

namespace WatchMode

def label : WatchMode → String
  | single => "single"
  | monorepo => "monorepo"

def title : WatchMode → String
  | single => "Single"
  | monorepo => "Monorepo"

def all : List WatchMode := [single, monorepo]

end WatchMode

/-- One unit of compilation. `id` is the root relative to that of the workspace, `.` for the
workspace root itself. -/
structure Project where
  id : String
  name : String
  root : Path
  configPath : Path
  deriving DecidableEq, Repr, Inhabited

structure Workspace where
  root : Path
  kind : WorkspaceKind
  projects : List Project
  deriving DecidableEq, Repr, Inhabited

namespace Workspace

/-- More than one project makes a monorepo. -/
def mode (w : Workspace) : WatchMode :=
  if 1 < w.projects.length then .monorepo else .single

def project? (w : Workspace) (id : String) : Option Project :=
  w.projects.find? fun p => p.id = id

theorem id_of_project? {w : Workspace} {id : String} {p : Project} (h : w.project? id = some p) :
    p.id = id := by
  simpa using List.find?_some h

/-- The project with a given name, or else with that id. -/
def named? (w : Workspace) (name : String) : Option Project :=
  (w.projects.find? fun p => p.name = name).or (w.project? name)

end Workspace

/-- The file that configures the compiler for a project, next to the manifest of the package. -/
def projectConfigFile : String := "tsconfig.json"

end DiagnosticWatch
