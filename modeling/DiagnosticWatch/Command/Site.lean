import DiagnosticWatch.Config
import DiagnosticWatch.Workspace.Detect

/-!
# Sites

A site is what a command can see: a file tree, environment variables and a current directory.
Commands never change it.
-/

namespace DiagnosticWatch

/-- Where commands run. -/
structure Site where
  tree : FileTree
  environment : WatchConfig.Environment := []
  directory : Path
  deriving Inhabited

namespace Site

/-- The workspace root: the given one or else the current directory, without detours if it is
there. -/
def rootOf (s : Site) (given : Option Path) : Path :=
  let root := given.getD s.directory
  (s.tree.canonical? (s.directory.join root)).getD root

/-- The file that an operand names, seen from the current directory. A daemon would look from its
own. -/
def fileOf (s : Site) (file : Path) : String :=
  (s.tree.canonicalOrSame (s.directory.join file)).text

def workspaceAt (s : Site) (root : Path) :
    Except WatchConfig.LoadError (WatchConfig × Workspace) := do
  let config ← WatchConfig.load s.tree s.environment root
  return (config, .detect s.tree root config.autoDetectWorkspaces)

/-- The members of an object whose values are texts. -/
def textMembers : Json.Value → List (String × String)
  | .object members => members.filterMap fun (name, v) =>
    match v with
    | .text s => some (name, s)
    | _ => none
  | _ => []

/-- The site that a JSON object describes: its `directory`, and texts by name in `environment` and
by path in `files`. What is missing is empty. -/
def parse (text : String) : Except Json.Rejection Site := do
  let members ← match ← Json.decode .any text with
    | .object members => pure members
    | _ => pure []
  let part (name : String) : List (String × String) :=
    textMembers ((members.lookup name).getD .null)
  let directory : Path := match members.lookup "directory" with
    | some (.text dir) => ⟨dir⟩
    | _ => ⟨"/"⟩
  let names (p : Path) : List String := Path.names (Path.resolve p.location)
  let tree := FileTree.empty.addDirectory (names directory)
  return {
    tree := (part "files").foldl
      (fun tree (file, content) =>
        tree.addFile (names (directory.join ⟨file⟩)) content.toUTF8 false) tree
    environment := part "environment"
    directory }

end Site

end DiagnosticWatch
