import DiagnosticWatch.Ignore.Glob
import DiagnosticWatch.Workspace.Basic

/-!
# Ignored paths

A filter holds globs for paths below a workspace root. The default globs keep out the directories of
dependencies, build output, version control and caches; the globs of the user come on top of them.
The compiler configuration at the root itself is never ignored.
-/

namespace DiagnosticWatch

def ignoredDirectories : List String :=
  ["node_modules", "dist", "build", "out", ".git", ".hg", ".svn", ".next", ".turbo", ".cache",
    "coverage", ".tscd"]

/-- A filter for the paths of a workspace, or for relative paths if it has no root. Each glob comes
with the expression it stands for. -/
structure IgnoreFilter where
  root : Option Path := none
  patterns : List (String × Regex.Pattern) := []
  deriving DecidableEq, Repr, Inhabited

namespace IgnoreFilter

def defaultGlobs : List String :=
  ignoredDirectories.map fun name => "**/" ++ name ++ "/**"

/-- The filter of the default globs and those of the user. A glob that makes no sense is left
out. -/
def create (root : Option Path) (globs : List String) : IgnoreFilter :=
  { root
    patterns := (defaultGlobs ++ globs).filterMap fun glob =>
      (Glob.pattern? glob).map fun p => (glob, p) }

def globs (f : IgnoreFilter) : List String :=
  f.patterns.map (·.1)

theorem mem_patterns_create {root : Option Path} {globs : List String} {glob : String}
    {pattern : Regex.Pattern} :
    (glob, pattern) ∈ (create root globs).patterns ↔
      glob ∈ defaultGlobs ++ globs ∧ Glob.pattern? glob = some pattern := by
  simp only [create, List.mem_filterMap, Option.map_eq_some_iff, Prod.mk.injEq]
  constructor
  · rintro ⟨g, hg, q, hq, rfl, rfl⟩
    exact ⟨hg, hq⟩
  · rintro ⟨hg, hq⟩
    exact ⟨glob, hg, pattern, hq, rfl, rfl⟩

/-- What is left of a location below the root; a path outside stays whole. -/
def relativeLocation (f : IgnoreFilter) (p : Path) : Location :=
  match f.root with
  | none => p.location
  | some root => (p.below? root).getD p.location

/-- The text that globs are matched against: the names of the path below the root. -/
def relative (f : IgnoreFilter) (p : Path) : String :=
  (Path.ofLocation <| (f.relativeLocation p).filter fun
    | .current | .parent => false
    | .root | .normal _ => true).text

def isIgnored (f : IgnoreFilter) (p : Path) : Bool :=
  let text := f.relative p
  text != projectConfigFile && f.patterns.any fun (_, pattern) => pattern.occursIn text

end IgnoreFilter

end DiagnosticWatch
