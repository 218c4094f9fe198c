import DiagnosticWatch.Workspace.Basic

/-!
# What a watcher reports about itself

The states of projects and of the watcher as a whole, the summary that is published when a project
completes a pass, and the status that answers a query.
-/

namespace DiagnosticWatch

/-- How far the compiler session of a project is. A project is starting only while its session is
being opened. -/
inductive ProjectState
  | idle
  | starting
  | watching
  | error
  | stopped
  deriving DecidableEq, Repr, Inhabited

namespace ProjectState

def label : ProjectState → String
  | idle => "idle"
  | starting => "starting"
  | watching => "watching"
  | error => "error"
  | stopped => "stopped"

def title : ProjectState → String
  | idle => "Idle"
  | starting => "Starting"
  | watching => "Watching"
  | error => "Error"
  | stopped => "Stopped"

def all : List ProjectState := [idle, starting, watching, error, stopped]

end ProjectState

/-- Whether the watcher has been started, and stopped again. -/
inductive Lifecycle
  | inactive
  | active
  | stopped
  deriving DecidableEq, Repr, Inhabited

namespace Lifecycle

def label : Lifecycle → String
  | inactive => "inactive"
  | active => "active"
  | stopped => "stopped"

end Lifecycle

/-- What a project holds right behind a complete pass. -/
structure PassSummary where
  projectId : String
  projectName : String
  errors : Nat
  warnings : Nat
  completedAt : Nat
  deriving DecidableEq, Repr, Inhabited

structure ProjectStatus where
  id : String
  name : String
  state : ProjectState
  deriving DecidableEq, Repr, Inhabited

/-- The state of a watcher. Projects and files count as watched while their session is open. -/
structure WatchStatus where
  active : Bool
  mode : WatchMode
  watchedProjects : Nat
  watchedFiles : Nat
  lastCompilation : Option Nat
  projects : List ProjectStatus
  deriving DecidableEq, Repr, Inhabited

end DiagnosticWatch
