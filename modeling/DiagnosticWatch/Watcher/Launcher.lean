import DiagnosticWatch.Compiler.Install

/-!
# Opening sessions

A watcher does not run compilers itself. A launcher says what happens when it tries: which projects
have a configuration, which attempts to open a session succeed, and which sessions close without
complaint.
-/

namespace DiagnosticWatch

/-- What the world answers to a watcher. Attempts are numbered in the order in which they are made,
and an attempt that succeeds gives the number of files that the session watches. -/
structure Launcher where
  hasConfig : Project → Bool
  attempt : Nat → Project → Except Compiler.OpenError Nat
  closesCleanly : Nat → Bool

namespace Launcher

/-- The launcher that starts the compilers of a file tree. A session counts files only once its
compiler has listed them. -/
def ofTree (tree : FileTree) (workspaceRoot : Path) : Launcher where
  hasConfig p := tree.isFile p.configPath
  attempt _ p := (Compiler.start? tree workspaceRoot p).map fun _ => 0
  closesCleanly _ := true

end Launcher

instance : Inhabited Launcher := ⟨.ofTree .empty ⟨"/"⟩⟩

/-- An open session: the number of the attempt that opened it, its project and how many files it
watches. -/
structure WatchSession where
  serial : Nat
  project : Project
  files : Nat
  deriving DecidableEq, Repr, Inhabited

inductive JournalEntry
  | opened (serial : Nat) (project : Project)
  | failed (serial : Nat) (project : Project)
  | closed (serial : Nat) (project : Project) (cleanly : Bool)
  deriving DecidableEq, Repr, Inhabited

def JournalEntry.render : JournalEntry → String
  | opened _ p => "open " ++ p.name
  | failed _ p => "fail " ++ p.name
  | closed _ p _ => "close " ++ p.name

end DiagnosticWatch
