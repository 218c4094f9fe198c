import DiagnosticWatch.Diagnostic
import DiagnosticWatch.Table

/-!
# The diagnostic store

The store holds, for each project, one bucket of diagnostics per file. Every project counts its
passes and a bucket remembers the pass that filled it: the first diagnostic for a file in a newer
pass replaces the bucket, and a pass that completes removes the buckets it did not refresh. So
nothing outlives the pass that should have repeated it.
-/

namespace DiagnosticWatch

/-- The diagnostics of one file. `file` is the spelling under which the bucket was opened. -/
structure Bucket where
  file : Path
  pass : Nat
  diagnostics : List Diagnostic
  deriving DecidableEq, Repr, Inhabited

/-- The buckets of one project and the number of its current or last pass. -/
structure ProjectIndex where
  files : Table Location Bucket := .empty
  pass : Nat := 0
  passOpen : Bool := false
  deriving DecidableEq, Inhabited

namespace ProjectIndex

/-- Opens the next pass, unless one is open. -/
def beginPass (p : ProjectIndex) : ProjectIndex :=
  if p.passOpen then p else { p with pass := p.pass + 1, passOpen := true }

/-- Puts a diagnostic into the bucket of its file, and opens a pass if none is open. -/
def insert (p : ProjectIndex) (d : Diagnostic) : ProjectIndex :=
  let p := p.beginPass
  let place := d.file.location
  let bucket : Bucket :=
    match p.files.get? place with
    | none => { file := d.file, pass := p.pass, diagnostics := [d] }
    | some b =>
      if b.pass = p.pass then { b with diagnostics := b.diagnostics ++ [d] }
      else { b with pass := p.pass, diagnostics := [d] }
  { p with files := p.files.insert place bucket }

/-- Completes the open pass, an empty one if none is open. Returns the files whose buckets went. -/
def completePass (p : ProjectIndex) : List Path × ProjectIndex :=
  let p := p.beginPass
  let stale := p.files.filter fun _ b => decide (b.pass ≠ p.pass)
  (stale.values.map (·.file),
    { p with files := p.files.filter fun _ b => decide (b.pass = p.pass), passOpen := false })

def file? (p : ProjectIndex) (file : Path) : Option (List Diagnostic) :=
  (p.files.get? file.location).map (·.diagnostics)

/-- All diagnostics, by file in path order and in order of arrival within a file. -/
def diagnostics (p : ProjectIndex) : List Diagnostic :=
  p.files.values.flatMap (·.diagnostics)

def fileCount (p : ProjectIndex) : Nat :=
  p.files.size

def remove (p : ProjectIndex) (file : Path) : ProjectIndex :=
  { p with files := p.files.erase file.location }

def clear (p : ProjectIndex) : ProjectIndex :=
  { p with files := .empty }

end ProjectIndex

/-- The indexes of the registered projects, by project id. -/
structure Store where
  projects : Table String ProjectIndex := .empty
  deriving DecidableEq, Inhabited

namespace Store

def empty : Store := {}

/-- Makes a project known; a known one stays as it is. -/
def register (s : Store) (id : String) : Store :=
  if s.projects.contains id then s else ⟨s.projects.insert id {}⟩

def contains (s : Store) (id : String) : Bool :=
  s.projects.contains id

def projectIds (s : Store) : List String :=
  s.projects.keys

/-- Opens a pass of a project; tells whether the project is known. -/
def beginPass (s : Store) (id : String) : Bool × Store :=
  (s.contains id, ⟨s.projects.modify id .beginPass⟩)

/-- Adds a diagnostic to a project; tells whether the project is known. -/
def insert (s : Store) (id : String) (d : Diagnostic) : Bool × Store :=
  (s.contains id, ⟨s.projects.modify id (·.insert d)⟩)

/-- Completes a pass of a project and tells which files lost their buckets. -/
def completePass (s : Store) (id : String) : Option (List Path) × Store :=
  ((s.projects.get? id).map (·.completePass.1), ⟨s.projects.modify id (·.completePass.2)⟩)

def file? (s : Store) (id : String) (file : Path) : Option (List Diagnostic) :=
  (s.projects.get? id).bind (·.file? file)

def projectDiagnostics? (s : Store) (id : String) : Option (List Diagnostic) :=
  (s.projects.get? id).map (·.diagnostics)

/-- All diagnostics, project by project in ascending id order. -/
def allDiagnostics (s : Store) : List Diagnostic :=
  s.projects.values.flatMap (·.diagnostics)

def totals (s : Store) : Tally :=
  .of s.allDiagnostics

def projectTotals? (s : Store) (id : String) : Option Tally :=
  (s.projects.get? id).map fun p => .of p.diagnostics

def hasErrors (s : Store) : Bool :=
  s.projects.values.any fun p => p.files.values.any fun b => b.diagnostics.any (·.isError)

/-- Removes a file from every project; tells from which ones. -/
def removeFile (s : Store) (file : Path) : List String × Store :=
  ((s.projects.filter fun _ p => p.files.contains file.location).keys,
    ⟨s.projects.map fun _ p => p.remove file⟩)

/-- Removes every bucket; the projects stay known. -/
def clear (s : Store) : Store :=
  ⟨s.projects.map fun _ p => p.clear⟩

def fileCount (s : Store) : Nat :=
  s.projects.values.foldl (fun n p => n + p.fileCount) 0

inductive Operation
  | register (id : String)
  | beginPass (id : String)
  | insert (id : String) (diagnostic : Diagnostic)
  | completePass (id : String)
  | removeFile (file : Path)
  | clear
  deriving DecidableEq, Repr, Inhabited

inductive Answer
  | known (isKnown : Bool)
  | pruned (files : Option (List Path))
  | removedFrom (ids : List String)
  | done
  deriving DecidableEq, Repr, Inhabited

def perform (s : Store) : Operation → Answer × Store
  | .register id => (.done, s.register id)
  | .beginPass id =>
    let (known, s) := s.beginPass id
    (.known known, s)
  | .insert id d =>
    let (known, s) := s.insert id d
    (.known known, s)
  | .completePass id =>
    let (pruned, s) := s.completePass id
    (.pruned pruned, s)
  | .removeFile file =>
    let (ids, s) := s.removeFile file
    (.removedFrom ids, s)
  | .clear => (.done, s.clear)

end Store

end DiagnosticWatch
