import DiagnosticWatch.Json.Decoder
import DiagnosticWatch.Workspace.Basic

/-!
# Workspaces as JSON

Kinds and modes are written as their labels, projects and workspaces as objects.
-/

namespace DiagnosticWatch

open Json (Value Decoder)

namespace WorkspaceKind

def toJson (k : WorkspaceKind) : Value := .text k.label

def decoder : Decoder WorkspaceKind :=
  .oneOf (all.map fun k => (k.label, .plain k))

end WorkspaceKind

namespace WatchMode

def toJson (m : WatchMode) : Value := .text m.label

def decoder : Decoder WatchMode :=
  .oneOf (all.map fun m => (m.label, .plain m))

end WatchMode

namespace Project

def toJson (p : Project) : Value :=
  .object [("id", .text p.id), ("name", .text p.name), ("root", .text p.root.text),
    ("configPath", .text p.configPath.text)]

structure Draft where
  id : Option String := none
  name : Option String := none
  root : Option String := none
  configPath : Option String := none

def decoder : Decoder Project :=
  .record
    { title := "struct ProjectConfig"
      start := ({} : Draft)
      fields :=
        [.of "id" (·.id.isSome) .text fun a d => { d with id := some a },
          .of "name" (·.name.isSome) .text fun a d => { d with name := some a },
          .of "root" (·.root.isSome) .path fun a d => { d with root := some a },
          .of "configPath" (·.configPath.isSome) .path fun a d => { d with configPath := some a }]
      finish := fun d => do
        let id ← Decoder.required "id" d.id
        let name ← Decoder.required "name" d.name
        let root ← Decoder.required "root" d.root
        let configPath ← Decoder.required "configPath" d.configPath
        return { id, name, root := ⟨root⟩, configPath := ⟨configPath⟩ } }

end Project

namespace Workspace

def toJson (w : Workspace) : Value :=
  .object [("root", .text w.root.text), ("kind", w.kind.toJson),
    ("projects", .array (w.projects.map Project.toJson))]

structure Draft where
  root : Option String := none
  kind : Option WorkspaceKind := none
  projects : Option (List Project) := none

def decoder : Decoder Workspace :=
  .record
    { title := "struct Workspace"
      start := ({} : Draft)
      fields :=
        [.of "root" (·.root.isSome) .path fun a d => { d with root := some a },
          .of "kind" (·.kind.isSome) WorkspaceKind.decoder fun a d => { d with kind := some a },
          .of "projects" (·.projects.isSome) (.list Project.decoder)
            fun a d => { d with projects := some a }]
      finish := fun d => do
        let root ← Decoder.required "root" d.root
        let kind ← Decoder.required "kind" d.kind
        let projects ← Decoder.required "projects" d.projects
        return { root := ⟨root⟩, kind, projects } }

end Workspace

end DiagnosticWatch
