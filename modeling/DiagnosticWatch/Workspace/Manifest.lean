import DiagnosticWatch.Json.Comments
import DiagnosticWatch.Json.Decoder
import DiagnosticWatch.Yaml.Node

/-!
# Manifests

The files that declare packages and workspaces. Each is read for the few members that matter here: a
package for its name and the patterns of its workspace members, the other manifests for patterns or
folders.
-/

namespace DiagnosticWatch.Manifest

open Json (Value Decoder)

/-- The manifest of a package. A package that declares members is the root of a workspace. -/
structure Package where
  name : Option String
  members : Option (List String)
  deriving DecidableEq, Repr, Inhabited

/-- The texts of a list of JSON values, if they all are texts. -/
private def texts? (vs : List Value) : Option (List String) :=
  vs.mapM fun
    | .text s => some s
    | _ => none

/-- Member patterns, written as a list or as an object that may hold the list once. -/
def memberPatterns? : Value → Option (List String)
  | .array vs => texts? vs
  | .object ms =>
    match ms.filter fun m => m.1 = "packages" with
    | [] => some []
    | [(_, .array vs)] => texts? vs
    | _ => none
  | _ => none

namespace Package

structure Draft where
  name : Option (Option String) := none
  members : Option (Option (List String)) := none

def decoder : Decoder Package :=
  .record
    { title := "a package manifest"
      start := ({} : Draft)
      fields :=
        [.of "name" (·.name.isSome) Decoder.text.optional fun a d => { d with name := some a },
          { name := "workspaces", aliases := [], isSet := (·.members.isSome), mayEnd := true
            read :=
              ((Decoder.any.check fun v =>
                match memberPatterns? v with
                | some patterns => .ok patterns
                | none => .error (.noVariant "member patterns")).optional).map
                  fun a d => { d with members := some a } }]
      finish := fun d => .ok { name := d.name.join, members := d.members.join } }

end Package

/-- One project of a monorepo that lists folders: its name and its folder. -/
structure Folder where
  name : String
  folder : String
  deriving DecidableEq, Repr, Inhabited

namespace Folder

structure Draft where
  name : Option String := none
  folder : Option String := none

def decoder : Decoder Folder :=
  .record
    { title := "a folder"
      start := ({} : Draft)
      fields :=
        [.of "packageName" (·.name.isSome) .text fun a d => { d with name := some a },
          .of "projectFolder" (·.folder.isSome) .text fun a d => { d with folder := some a }]
      finish := fun d => do
        return { name := ← Decoder.required "packageName" d.name
                 folder := ← Decoder.required "projectFolder" d.folder } }

/-- Reads the list of folders, which may be missing. -/
def listDecoder : Decoder (List Folder) :=
  .record
    { title := "a list of folders"
      start := (none : Option (List Folder))
      fields :=
        [{ name := "projects", aliases := [], isSet := (·.isSome), mayEnd := true
           read := (Decoder.list decoder).map fun a _ => some a }]
      finish := fun d => .ok (d.getD []) }

end Folder

/-- The folders that a text with comments lists. -/
def folders? (text : String) : Option (List Folder) :=
  (Json.decode Folder.listDecoder (Json.stripComments text)).toOption

/-- Where packages are looked for if their patterns are missing. -/
def usualPatterns : List String := ["packages/*"]

/-- The patterns in a JSON manifest whose only member that matters is their list. -/
def patternsDecoder : Decoder (List String) :=
  .record
    { title := "a list of patterns"
      start := (none : Option (Option (List String)))
      fields :=
        [.of "packages" (·.isSome) (Decoder.list .text).optional fun a _ => some a]
      finish := fun d => .ok (d.join.getD usualPatterns) }

private def scalarText? : Yaml.Node → Option String
  | .scalar text _ => some text
  | _ => none

/-- The texts of a YAML sequence of scalars; a value that is missing holds none. -/
private def scalarTexts? : Yaml.Node → Option (List String)
  | .sequence items => items.mapM scalarText?
  | .scalar "" true => some []
  | _ => none

/-- The patterns in the root node of a YAML manifest. Keys have to be scalars, and the patterns may
come once. -/
def patternsOf? : Yaml.Node → Option (List String)
  | .mapping members => do
    let members ← members.mapM fun (key, value) => (scalarText? key).map fun key => (key, value)
    match members.filter fun m => m.1 = "packages" with
    | [] => some []
    | [(_, value)] => scalarTexts? value
    | _ => none
  | .scalar "" true => some []
  | _ => none

def patterns? (text : String) : Option (List String) :=
  match Yaml.load? text with
  | none => none
  | some none => some []
  | some (some node) => patternsOf? node

end DiagnosticWatch.Manifest
