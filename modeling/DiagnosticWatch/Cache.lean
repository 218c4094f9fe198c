import DiagnosticWatch.Diagnostic

/-!
# The diagnostic cache

A bounded cache of file buckets, keyed by project and file. Its entries are listed from the most to
the least recently used; a new key in a full cache pushes out the last one. An entry also expires
once it is older than the cache allows, which is noticed when it is read. The cache keeps counters
of what happened to it and never makes up data: whoever writes to it has written to the store
before.
-/

namespace DiagnosticWatch

/-- What an entry is found by. Spellings of one location are one key. -/
structure CacheKey where
  project : String
  place : Location
  deriving DecidableEq, Repr, Inhabited

/-- One cached bucket. `file` is the spelling under which the key was first stored. -/
structure CacheEntry where
  key : CacheKey
  file : Path
  diagnostics : List Diagnostic
  insertedAt : Nat
  deriving DecidableEq, Repr, Inhabited

/-- The text that an invalidation pattern is matched against. -/
def CacheEntry.render (e : CacheEntry) : String :=
  e.key.project ++ ":" ++ e.file.text

/-- The counters of a cache at one moment. -/
structure CacheStats where
  size : Nat
  capacity : Nat
  hits : Nat
  misses : Nat
  evictions : Nat
  hitRate : Float
  deriving Inhabited

/-- A cache. Times are in milliseconds of one clock. -/
structure Cache where
  capacity : Nat
  lifetime : Nat
  entries : List CacheEntry := []
  hits : Nat := 0
  misses : Nat := 0
  evictions : Nat := 0
  deriving DecidableEq, Repr, Inhabited

namespace Cache

/-- Bytes that one entry is taken to need. -/
def averageEntryBytes : Nat := 2 * 1024

/-- How long an entry lives unless told otherwise: five minutes. -/
def defaultLifetime : Nat := 5 * 60 * 1000

/-- How many entries fit into a budget of megabytes, at least one. The budget in bytes saturates at
the largest word. -/
def capacityFor (megabytes : Nat) : Nat :=
  max 1 (min (megabytes * (1024 * 1024)) (UInt64.size - 1) / averageEntryBytes)

/-- An empty cache. A cache has room for one entry at least. -/
def create (capacity lifetime : Nat) : Cache :=
  { capacity := max 1 capacity, lifetime }

def ofMegabytes (megabytes : Nat) : Cache :=
  create (capacityFor megabytes) defaultLifetime

def keyOf (project : String) (file : Path) : CacheKey :=
  ⟨project, file.location⟩

def find? (c : Cache) (key : CacheKey) : Option CacheEntry :=
  c.entries.find? fun e => decide (e.key = key)

/-- The entries of all other keys, in their order. -/
def without (key : CacheKey) (entries : List CacheEntry) : List CacheEntry :=
  entries.filter fun e => decide (e.key ≠ key)

def expired (c : Cache) (now : Nat) (e : CacheEntry) : Bool :=
  c.lifetime ≤ now - e.insertedAt

/-- Reads a key without counting. A living entry moves to the front, an expired one is dropped. -/
def read (c : Cache) (now : Nat) (key : CacheKey) : Option (List Diagnostic) × Cache :=
  match c.find? key with
  | none => (none, c)
  | some e =>
    if c.expired now e then (none, { c with entries := without key c.entries })
    else (some e.diagnostics, { c with entries := e :: without key c.entries })

def record (c : Cache) (hit : Bool) : Cache :=
  if hit then { c with hits := c.hits + 1 } else { c with misses := c.misses + 1 }

/-- Reads one key as one request. -/
def get (c : Cache) (now : Nat) (project : String) (file : Path) :
    Option (List Diagnostic) × Cache :=
  let (found, c) := c.read now (keyOf project file)
  (found, c.record found.isSome)

/-- Reads one file in several projects and joins what they hold; `none` if none holds it. -/
def gather (c : Cache) (now : Nat) (file : Path) : List String → Option (List Diagnostic) × Cache
  | [] => (none, c)
  | project :: projects =>
    let (found, c) := c.read now (keyOf project file)
    let (rest, c) := c.gather now file projects
    match found, rest with
    | none, rest => (rest, c)
    | some ds, none => (some ds, c)
    | some ds, some more => (some (ds ++ more), c)

/-- Looks a file up in several projects as one request, a hit if one of them holds it. -/
def lookupFile (c : Cache) (now : Nat) (projects : List String) (file : Path) :
    Option (List Diagnostic) × Cache :=
  let (found, c) := c.gather now file projects
  (found, c.record found.isSome)

/-- Stores a bucket as the most recent one. Only a new key can push out an entry. -/
def set (c : Cache) (now : Nat) (project : String) (file : Path) (ds : List Diagnostic) : Cache :=
  let key := keyOf project file
  match c.find? key with
  | some e =>
    { c with entries := { e with diagnostics := ds, insertedAt := now } :: without key c.entries }
  | none =>
    let e : CacheEntry := { key, file, diagnostics := ds, insertedAt := now }
    if c.entries.length < c.capacity then { c with entries := e :: c.entries }
    else { c with entries := e :: c.entries.dropLast, evictions := c.evictions + 1 }

/-- Removes a key; tells whether it was there. -/
def delete (c : Cache) (project : String) (file : Path) : Bool × Cache :=
  let key := keyOf project file
  ((c.find? key).isSome, { c with entries := without key c.entries })

/-- Removes every entry and keeps the counters. -/
def clear (c : Cache) : Cache :=
  { c with entries := [] }

/-- Removes the entries whose rendered key matches; tells how many there were. -/
def invalidate (c : Cache) (pattern : String → Bool) : Nat × Cache :=
  ((c.entries.filter fun e => pattern e.render).length,
    { c with entries := c.entries.filter fun e => !pattern e.render })

/-- The part of the requests that were hits; zero before the first request. -/
def hitRate (hits misses : Nat) : Float :=
  if hits + misses = 0 then 0 else hits.toFloat / (hits + misses).toFloat

def stats (c : Cache) : CacheStats :=
  { size := c.entries.length
    capacity := c.capacity
    hits := c.hits
    misses := c.misses
    evictions := c.evictions
    hitRate := hitRate c.hits c.misses }

inductive Operation
  | get (project : String) (file : Path)
  | lookupFile (projects : List String) (file : Path)
  | set (project : String) (file : Path) (diagnostics : List Diagnostic)
  | delete (project : String) (file : Path)
  | clear
  | invalidate (pattern : String → Bool)

inductive Answer
  | found (diagnostics : Option (List Diagnostic))
  | removed (wasThere : Bool)
  | count (entries : Nat)
  | done
  deriving DecidableEq, Repr, Inhabited

def perform (c : Cache) (now : Nat) : Operation → Answer × Cache
  | .get project file =>
    let (found, c) := c.get now project file
    (.found found, c)
  | .lookupFile projects file =>
    let (found, c) := c.lookupFile now projects file
    (.found found, c)
  | .set project file ds => (.done, c.set now project file ds)
  | .delete project file =>
    let (wasThere, c) := c.delete project file
    (.removed wasThere, c)
  | .clear => (.done, c.clear)
  | .invalidate pattern =>
    let (n, c) := c.invalidate pattern
    (.count n, c)

end Cache

end DiagnosticWatch
