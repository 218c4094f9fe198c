import DiagnosticWatch.Workspace.Basic
import DiagnosticWatch.Workspace.Manifest
import DiagnosticWatch.Workspace.Pattern
import DiagnosticWatch.Text.Blank

/-!
# Finding the projects of a workspace

A workspace is declared by one of four manifests at its root, which are asked in a fixed order. The
first one that can be read decides; if it names no project, or if there is none, the root itself is
the only project. A package becomes a project if a compiler configuration lies next to its manifest.
-/

namespace DiagnosticWatch

def packageManifestFile : String := "package.json"

/-- What one of the manifests at the root says. -/
inductive Declaration
  | absent
  | unreadable
  | projects (ps : List Project)
  deriving DecidableEq, Repr, Inhabited

/-- A directory whose projects are looked for in a file tree. -/
structure WorkspaceFinder where
  tree : FileTree
  root : Path
  deriving Inhabited

namespace WorkspaceFinder

/-- The finder for a root, which is taken without detours if it is there. -/
def create (tree : FileTree) (root : Path) : WorkspaceFinder :=
  { tree, root := tree.canonicalOrSame root }

def nameOf (dir : Path) : String :=
  dir.fileName?.getD "workspace"

/-- The id of a directory: the names below the root, or `.` if there are none. -/
def idOf (f : WorkspaceFinder) (dir : Path) : String :=
  match Path.names ((dir.below? f.root).getD dir.location) with
  | [] => "."
  | names => Text.joinTexts '/' names

/-- A name that is not blank, or else that of the directory. -/
def projectName (declared : Option String) (dir : Path) : String :=
  (declared.filter fun name => !Text.isAllBlank name).getD (nameOf dir)

/-- The project in a directory, if there is a compiler configuration. -/
def projectAt? (f : WorkspaceFinder) (dir : Path) (declared : Option String) : Option Project :=
  let configPath := dir.join ⟨projectConfigFile⟩
  if f.tree.isFile configPath then
    some { id := f.idOf dir, name := projectName declared dir, root := dir, configPath }
  else none

def package? (f : WorkspaceFinder) (manifest : Path) : Option Manifest.Package :=
  match f.tree.readText manifest with
  | .ok text => (Json.decode Manifest.Package.decoder text).toOption
  | .error _ => none

/-- Projects in ascending order of their ids. Of several with one id the last one stays. -/
def sorted (ps : List Project) : List Project :=
  (Table.ofList (ps.map fun p => (p.id, p))).values

/-- A pattern without blanks and slashes around it and without a leading `./`. -/
def cleanPattern (pattern : List Char) : List Char :=
  let pattern := Text.trim pattern
  let pattern := (Text.afterPrefix? ['.', '/'] pattern).getD pattern
  (pattern.reverse.dropWhile (· == '/')).reverse

/-- A pattern that takes packages out, if it is one: it starts with an exclamation mark. -/
def negated? (pattern : String) : Option (List Char) :=
  (Text.afterPrefix? ['!'] (Text.trim pattern.toList)).map cleanPattern

/-- The patterns that take packages out; those that make no sense take nothing out. -/
def exclusions (patterns : List String) : List MemberPattern :=
  (patterns.filterMap negated?).filterMap MemberPattern.parse?

def inclusions (patterns : List String) : List (List Char) :=
  (patterns.filter fun p => (negated? p).isNone).map fun p => cleanPattern p.toList

/-- The manifests of packages that a pattern leads to. -/
def manifestsOf (f : WorkspaceFinder) (pattern : List Char) : List Path :=
  MemberPattern.expand f.tree
    (MemberPattern.escape f.root.text.toList ++ '/' :: pattern ++ '/' :: packageManifestFile.toList)

/-- Whether a directory stays out: it is a dependency, or an exclusion matches its id. -/
def isExcluded (exclusions : List MemberPattern) (id : String) : Bool :=
  (Text.split '/' id.toList).contains "node_modules".toList ||
    exclusions.any fun p => p.isMatch id.toList

/-- The project of the package with a manifest, unless it stays out. -/
def member? (f : WorkspaceFinder) (exclusions : List MemberPattern) (manifest : Path) :
    Option Project := do
  let dir ← manifest.parent?
  if isExcluded exclusions (f.idOf dir) then none
  let package ← f.package? manifest
  f.projectAt? dir package.name

def members (f : WorkspaceFinder) (patterns : List String) : List Project :=
  sorted <|
    ((inclusions patterns).flatMap f.manifestsOf).filterMap (f.member? (exclusions patterns))

/-- What a manifest at the root declares; `read` gives nothing if it makes no sense. -/
def declared (f : WorkspaceFinder) (file : String) (read : String → Option Declaration) :
    Declaration :=
  let path := f.root.join ⟨file⟩
  if !f.tree.isFile path then .absent
  else match f.tree.readText path with
    | .error _ => .unreadable
    | .ok text => (read text).getD .unreadable

/-- What each kind of workspace declares, in the order in which they are asked. -/
def declarations (f : WorkspaceFinder) : List (WorkspaceKind × Declaration) :=
  [(.pnpm, f.declared "pnpm-workspace.yaml" fun text =>
      let patterns := if Text.isAllBlank text then some [] else Manifest.patterns? text
      patterns.map fun ps => .projects (f.members ps)),
    (.npm, f.declared packageManifestFile fun text =>
      (Json.decode Manifest.Package.decoder text).toOption.map fun package =>
        match package.members with
        | none => .absent
        | some ps => .projects (f.members ps)),
    (.rush, f.declared "rush.json" fun text =>
      (Manifest.folders? text).map fun folders =>
        .projects (sorted (folders.filterMap fun folder =>
          f.projectAt? (f.root.join ⟨folder.folder⟩) (some folder.name)))),
    (.lerna, f.declared "lerna.json" fun text =>
      (Json.decode Manifest.patternsDecoder text).toOption.map fun ps => .projects (f.members ps))]

/-- The first declaration that can be read. -/
def decisive? : List (WorkspaceKind × Declaration) → Option (WorkspaceKind × List Project)
  | [] => none
  | (kind, .projects ps) :: _ => some (kind, ps)
  | _ :: ds => decisive? ds

/-- The root as a project. Its configuration need not be there. -/
def rootProject (f : WorkspaceFinder) : Project :=
  let manifest := f.root.join ⟨packageManifestFile⟩
  let declared := if f.tree.isFile manifest then (f.package? manifest).bind (·.name) else none
  { id := "."
    name := projectName declared f.root
    root := f.root
    configPath := f.root.join ⟨projectConfigFile⟩ }

def single (f : WorkspaceFinder) : Workspace :=
  { root := f.root, kind := .single, projects := [f.rootProject] }

/-- The workspace at the root. Unless `auto` is set no declaration is looked for. -/
def find (f : WorkspaceFinder) (auto : Bool) : Workspace :=
  if !auto then f.single
  else match decisive? f.declarations with
    | some (kind, p :: ps) => { root := f.root, kind, projects := p :: ps }
    | _ => f.single

end WorkspaceFinder

def Workspace.detect (tree : FileTree) (root : Path) (auto : Bool) : Workspace :=
  (WorkspaceFinder.create tree root).find auto

end DiagnosticWatch
