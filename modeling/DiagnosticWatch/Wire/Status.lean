import DiagnosticWatch.Watcher.Status
import DiagnosticWatch.Wire.Workspace

/-!
# Reports of a watcher as JSON

States are written as their labels, summaries and statuses as objects.
-/

namespace DiagnosticWatch

open Json (Value Decoder)

namespace ProjectState

def toJson (s : ProjectState) : Value := .text s.label

def decoder : Decoder ProjectState :=
  .oneOf (all.map fun s => (s.label, .plain s))

end ProjectState

namespace PassSummary

def toJson (s : PassSummary) : Value :=
  .object
    [("projectId", .text s.projectId), ("projectName", .text s.projectName),
      ("errors", .natural s.errors), ("warnings", .natural s.warnings),
      ("completedAt", .natural s.completedAt)]

structure Draft where
  projectId : Option String := none
  projectName : Option String := none
  errors : Option Nat := none
  warnings : Option Nat := none
  completedAt : Option Nat := none

def decoder : Decoder PassSummary :=
  .record
    { title := "struct PassSummary"
      start := ({} : Draft)
      fields :=
        [.of "projectId" (·.projectId.isSome) .text fun a d => { d with projectId := some a },
          .of "projectName" (·.projectName.isSome) .text
            fun a d => { d with projectName := some a },
          .of "errors" (·.errors.isSome) .size fun a d => { d with errors := some a },
          .of "warnings" (·.warnings.isSome) .size fun a d => { d with warnings := some a },
          .of "completedAt" (·.completedAt.isSome) .uint64
            fun a d => { d with completedAt := some a }]
      finish := fun d => do
        let projectId ← Decoder.required "projectId" d.projectId
        let projectName ← Decoder.required "projectName" d.projectName
        let errors ← Decoder.required "errors" d.errors
        let warnings ← Decoder.required "warnings" d.warnings
        let completedAt ← Decoder.required "completedAt" d.completedAt
        return { projectId, projectName, errors, warnings, completedAt } }

end PassSummary

namespace ProjectStatus

def toJson (s : ProjectStatus) : Value :=
  .object [("id", .text s.id), ("name", .text s.name), ("state", s.state.toJson)]

structure Draft where
  id : Option String := none
  name : Option String := none
  state : Option ProjectState := none

def decoder : Decoder ProjectStatus :=
  .record
    { title := "struct ProjectStatus"
      start := ({} : Draft)
      fields :=
        [.of "id" (·.id.isSome) .text fun a d => { d with id := some a },
          .of "name" (·.name.isSome) .text fun a d => { d with name := some a },
          .of "state" (·.state.isSome) ProjectState.decoder fun a d => { d with state := some a }]
      finish := fun d => do
        let id ← Decoder.required "id" d.id
        let name ← Decoder.required "name" d.name
        let state ← Decoder.required "state" d.state
        return { id, name, state } }

end ProjectStatus

namespace WatchStatus

def toJson (s : WatchStatus) : Value :=
  .object
    [("active", .bool s.active), ("mode", s.mode.toJson),
      ("watchedProjects", .natural s.watchedProjects), ("watchedFiles", .natural s.watchedFiles),
      ("lastCompilation", .ofOption .natural s.lastCompilation),
      ("projects", .array (s.projects.map ProjectStatus.toJson))]

structure Draft where
  active : Option Bool := none
  mode : Option WatchMode := none
  watchedProjects : Option Nat := none
  watchedFiles : Option Nat := none
  lastCompilation : Option (Option Nat) := none
  projects : Option (List ProjectStatus) := none

def decoder : Decoder WatchStatus :=
  .record
    { title := "struct WatchStatus"
      start := ({} : Draft)
      fields :=
        [.of "active" (·.active.isSome) .bool fun a d => { d with active := some a },
          .of "mode" (·.mode.isSome) WatchMode.decoder fun a d => { d with mode := some a },
          .of "watchedProjects" (·.watchedProjects.isSome) .size
            fun a d => { d with watchedProjects := some a },
          .of "watchedFiles" (·.watchedFiles.isSome) .size
            fun a d => { d with watchedFiles := some a },
          .of "lastCompilation" (·.lastCompilation.isSome) Decoder.uint64.optional
            fun a d => { d with lastCompilation := some a },
          .of "projects" (·.projects.isSome) (.list ProjectStatus.decoder)
            fun a d => { d with projects := some a }]
      finish := fun d => do
        let active ← Decoder.required "active" d.active
        let mode ← Decoder.required "mode" d.mode
        let watchedProjects ← Decoder.required "watchedProjects" d.watchedProjects
        let watchedFiles ← Decoder.required "watchedFiles" d.watchedFiles
        let projects ← Decoder.required "projects" d.projects
        return { active, mode, watchedProjects, watchedFiles,
                 lastCompilation := d.lastCompilation.join, projects } }

end WatchStatus

end DiagnosticWatch
