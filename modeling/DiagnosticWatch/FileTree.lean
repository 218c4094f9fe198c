import DiagnosticWatch.Path
import DiagnosticWatch.Table
import DiagnosticWatch.Text.Search

/-!
# File trees

A file tree is a snapshot of a file system without links: every name list below the root leads to a
directory or to a file. Looking a path up walks its parts as they are written, so `a/../b` needs the
directory `a`, and a trailing separator asks for a directory. Everything in the tree may be read,
and the tree does not change while it is looked at.
-/

namespace DiagnosticWatch

inductive Node
  | directory
  | file (content : ByteArray) (executable : Bool)
  deriving Inhabited

inductive ReadError
  | notFound
  | notDirectory
  | isDirectory
  | notUtf8
  deriving DecidableEq, Repr, Inhabited

namespace ReadError

def message : ReadError → String
  | notFound => "No such file or directory (os error 2)"
  | notDirectory => "Not a directory (os error 20)"
  | isDirectory => "Is a directory (os error 21)"
  | notUtf8 => "stream did not contain valid UTF-8"

end ReadError

/-- The nodes below the root, by the names that lead to them. -/
structure FileTree where
  nodes : Table (List String) Node
  deriving Inhabited

namespace FileTree

/-- The tree with nothing but the root directory. -/
def empty : FileTree := ⟨.empty⟩

/-- The node that a list of names leads to; no names lead to the root directory. -/
def node? (t : FileTree) (names : List String) : Option Node :=
  if names.isEmpty then some .directory else t.nodes.get? names

def isDirectoryAt (t : FileTree) (names : List String) : Bool :=
  match t.node? names with
  | some .directory => true
  | _ => false

/-- Adds a directory and every directory above it that is not there yet. -/
def addDirectory (t : FileTree) (names : List String) : FileTree :=
  (List.range (names.length + 1)).foldl (fun t n =>
    let above := names.take n
    if (t.node? above).isSome then t else ⟨t.nodes.insert above .directory⟩) t

/-- Puts a file at a place, with the directories above it. -/
def addFile (t : FileTree) (names : List String) (content : ByteArray) (executable : Bool) :
    FileTree :=
  ⟨(t.addDirectory names.dropLast).nodes.insert names (.file content executable)⟩

/-- One step of a walk. Whatever the next part is, the walk has to stand on a directory. -/
def walkPart (t : FileTree) (names : List String) (part : List Char) :
    Except ReadError (List String) :=
  if !t.isDirectoryAt names then
    if (t.node? names).isSome then .error .notDirectory else .error .notFound
  else if part = [] ∨ part = ['.'] then .ok names
  else if part = ['.', '.'] then .ok names.dropLast
  else .ok (names ++ [String.ofList part])

/-- The names at which a path ends. Only absolute paths lead anywhere. -/
def locate (t : FileTree) (p : Path) : Except ReadError (List String) :=
  match p.text.toList with
  | '/' :: rest => do
    let names ← (Text.split '/' rest).foldlM (walkPart t) []
    if (t.node? names).isSome then .ok names else .error .notFound
  | _ => .error .notFound

def get? (t : FileTree) (p : Path) : Option Node :=
  match t.locate p with
  | .ok names => t.node? names
  | .error _ => none

def exists? (t : FileTree) (p : Path) : Bool :=
  (t.get? p).isSome

def isFile (t : FileTree) (p : Path) : Bool :=
  match t.get? p with
  | some (.file _ _) => true
  | _ => false

def isDirectory (t : FileTree) (p : Path) : Bool :=
  match t.get? p with
  | some .directory => true
  | _ => false

/-- The entries of a directory in ascending order of their names. -/
def entries (t : FileTree) (p : Path) : List Path :=
  match t.locate p with
  | .error _ => []
  | .ok names => t.nodes.keys.filterMap fun place =>
    match Text.afterPrefix? names place with
    | some [name] => some (p.join ⟨name⟩)
    | _ => none

/-- Everything below a directory: its entries in ascending order, each in front of what is below
it. -/
def entriesBelow (t : FileTree) (p : Path) : List Path :=
  match t.locate p with
  | .error _ => []
  | .ok names => t.nodes.keys.filterMap fun place =>
    match Text.afterPrefix? names place with
    | some (name :: below) => some ((name :: below).foldl (fun p name => p.join ⟨name⟩) p)
    | _ => none

def isExecutable (t : FileTree) (p : Path) : Bool :=
  match t.get? p with
  | some (.file _ executable) => executable
  | _ => false

def readText (t : FileTree) (p : Path) : Except ReadError String := do
  match t.node? (← t.locate p) with
  | some (.file content _) =>
    match String.fromUTF8? content with
    | some text => .ok text
    | none => .error .notUtf8
  | some .directory => .error .isDirectory
  | none => .error .notFound

/-- The path without detours, if it leads anywhere. -/
def canonical? (t : FileTree) (p : Path) : Option Path :=
  match t.locate p with
  | .ok names => some (.ofLocation (.root :: names.map .normal))
  | .error _ => none

/-- The path without detours; one that leads nowhere stays as it is. -/
def canonicalOrSame (t : FileTree) (p : Path) : Path :=
  (t.canonical? p).getD p

end FileTree

end DiagnosticWatch
