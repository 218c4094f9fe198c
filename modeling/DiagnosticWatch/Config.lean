import DiagnosticWatch.FileTree
import DiagnosticWatch.Json.Decoder
import DiagnosticWatch.Text.Blank
import DiagnosticWatch.Text.Digit
import DiagnosticWatch.Text.Search

/-!
# Configuration

The options of the daemon come from three places, each overriding the one before: the defaults, the
file `.tscd.json` at the workspace root, and environment variables. A file that is there has to be
readable; a variable that makes no sense is passed over.
-/

namespace DiagnosticWatch

open Json (Value Decoder)

/-- The options. The debounce time, the number of queries at a time and the persistent cache are
accepted and have no effect. -/
structure WatchConfig where
  cacheSizeMb : Nat := 50
  debounceMs : Nat := 300
  ignorePatterns : List String := []
  autoDetectWorkspaces : Bool := true
  maxConcurrentQueries : Nat := 10
  persistentCache : Bool := false
  deriving DecidableEq, Repr, Inhabited

namespace WatchConfig

def fileName : String := ".tscd.json"

def toJson (c : WatchConfig) : Value :=
  .object
    [("cacheSizeMb", .natural c.cacheSizeMb), ("debounceMs", .natural c.debounceMs),
      ("ignorePatterns", .array (c.ignorePatterns.map .text)),
      ("autoDetectWorkspaces", .bool c.autoDetectWorkspaces),
      ("maxConcurrentQueries", .natural c.maxConcurrentQueries),
      ("persistentCache", .bool c.persistentCache)]

structure Draft where
  cacheSizeMb : Option Nat := none
  debounceMs : Option Nat := none
  ignorePatterns : Option (List String) := none
  autoDetectWorkspaces : Option Bool := none
  maxConcurrentQueries : Option Nat := none
  persistentCache : Option Bool := none

/-- An option that may be missing and has a second name. -/
private def option (name other : String) (isSet : Draft → Bool) (d : Decoder α)
    (set : α → Draft → Draft) : Decoder.Field Draft :=
  { name, aliases := [other], isSet, read := d.map set, mayEnd := true }

/-- Reads options; those that are missing keep their defaults. -/
def decoder : Decoder WatchConfig :=
  .record
    { title := "struct WatchConfig"
      start := ({} : Draft)
      fields :=
        [option "cacheSizeMb" "cache_size_mb" (·.cacheSizeMb.isSome) .uint64
            fun a d => { d with cacheSizeMb := some a },
          option "debounceMs" "debounce_ms" (·.debounceMs.isSome) .uint64
            fun a d => { d with debounceMs := some a },
          option "ignorePatterns" "ignore_patterns" (·.ignorePatterns.isSome) (.list .text)
            fun a d => { d with ignorePatterns := some a },
          option "autoDetectWorkspaces" "auto_detect_workspaces"
            (·.autoDetectWorkspaces.isSome) .bool
            fun a d => { d with autoDetectWorkspaces := some a },
          option "maxConcurrentQueries" "max_concurrent_queries"
            (·.maxConcurrentQueries.isSome) .size
            fun a d => { d with maxConcurrentQueries := some a },
          option "persistentCache" "persistent_cache" (·.persistentCache.isSome) .bool
            fun a d => { d with persistentCache := some a }]
      finish := fun d =>
        let c : WatchConfig := {}
        .ok
          { cacheSizeMb := d.cacheSizeMb.getD c.cacheSizeMb
            debounceMs := d.debounceMs.getD c.debounceMs
            ignorePatterns := d.ignorePatterns.getD c.ignorePatterns
            autoDetectWorkspaces := d.autoDetectWorkspaces.getD c.autoDetectWorkspaces
            maxConcurrentQueries := d.maxConcurrentQueries.getD c.maxConcurrentQueries
            persistentCache := d.persistentCache.getD c.persistentCache } }

abbrev Environment := List (String × String)

/-- A number that fits a word, with a plus sign or without. -/
def number? (raw : String) : Option Nat :=
  let digits := match Text.trim raw.toList with
    | '+' :: rest => rest
    | cs => cs
  Text.boundedDecimal? Json.wordLimit digits

/-- A truth value in one of its four spellings, in any letter case. -/
def flag? (raw : String) : Option Bool :=
  let word := String.ofList (Text.lowerAscii (Text.trim raw.toList))
  if ["1", "true", "yes", "on"].contains word then some true
  else if ["0", "false", "no", "off"].contains word then some false
  else none

/-- A list of patterns between commas; blank ones are left out. -/
def patterns (raw : String) : List String :=
  (((Text.split ',' raw.toList).map Text.trim).filter fun p => !p.isEmpty).map String.ofList

/-- The options after the variables that are set and make sense. -/
def override (c : WatchConfig) (env : Environment) : WatchConfig :=
  let number (name : String) (old : Nat) : Nat := ((env.lookup name).bind number?).getD old
  let flag (name : String) (old : Bool) : Bool := ((env.lookup name).bind flag?).getD old
  { cacheSizeMb := number "TSCD_CACHE_SIZE_MB" c.cacheSizeMb
    debounceMs := number "TSCD_DEBOUNCE_MS" c.debounceMs
    ignorePatterns := ((env.lookup "TSCD_IGNORE_PATTERNS").map patterns).getD c.ignorePatterns
    autoDetectWorkspaces := flag "TSCD_AUTO_DETECT_WORKSPACES" c.autoDetectWorkspaces
    maxConcurrentQueries := number "TSCD_MAX_CONCURRENT_QUERIES" c.maxConcurrentQueries
    persistentCache := flag "TSCD_PERSISTENT_CACHE" c.persistentCache }

inductive LoadError
  | unreadable (e : ReadError)
  | malformed (r : Json.Rejection)
  deriving Inhabited

def LoadError.message : LoadError → String
  | unreadable e => e.message
  | malformed r => r.message

/-- The options in a file; the defaults if there is none. -/
def ofFile (tree : FileTree) (path : Path) : Except LoadError WatchConfig :=
  if !tree.exists? path then .ok {}
  else match tree.readText path with
    | .error e => .error (.unreadable e)
    | .ok text => (Json.decode decoder text).mapError .malformed

def load (tree : FileTree) (env : Environment) (root : Path) : Except LoadError WatchConfig :=
  (ofFile tree (root.join ⟨fileName⟩)).map (·.override env)

end WatchConfig

end DiagnosticWatch
