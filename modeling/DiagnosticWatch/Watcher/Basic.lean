import DiagnosticWatch.Cache
import DiagnosticWatch.Error
import DiagnosticWatch.Ignore.Filter
import DiagnosticWatch.Phase
import DiagnosticWatch.Session
import DiagnosticWatch.Store
import DiagnosticWatch.Watcher.Launcher
import DiagnosticWatch.Watcher.Status

/-!
# Watchers

A watcher keeps one compiler session per project and answers queries about what they report. It
alone writes diagnostics: each one goes to the store at once, and the bucket of its file to the
cache as soon as the sessions move on to another file, a pass completes or a query needs it. Until
then the bucket is *staged* and the cache does not hold it, so store and cache never disagree on a
bucket that both hold.

The clock is read once for an operation, in milliseconds: expiry and the times that answers carry
are taken from the same reading.
-/

namespace DiagnosticWatch

/-- The bucket that has not been written to the cache yet. -/
structure Staged where
  project : String
  file : Path
  deriving DecidableEq, Repr, Inhabited

/-- Someone who wants to know about complete passes, with what has not been picked up yet. -/
structure Subscriber where
  listening : Bool := true
  pending : List PassSummary := []
  deriving DecidableEq, Repr, Inhabited

/-- Tells those who are listening about a complete pass. That somebody has left is only noticed
now. -/
def Subscriber.tell (subscribers : Table Nat Subscriber) (summary : PassSummary) :
    Table Nat Subscriber :=
  (subscribers.filter fun _ s => s.listening).map fun _ s =>
    { s with pending := s.pending ++ [summary] }

/-- The state of a watcher. The journal has the latest entry first, `attempts` numbers the attempts
to open a session, and `subscriptions` numbers the subscribers. -/
structure Watcher where
  workspace : Workspace
  filter : IgnoreFilter
  launcher : Launcher
  sessions : Table String WatchSession := .empty
  states : Table String ProjectState := .empty
  store : Store := .empty
  cache : Cache
  lifecycle : Lifecycle := .inactive
  lastCompilation : Option Nat := none
  staged : Option Staged := none
  queue : List SessionEvent := []
  subscribers : Table Nat Subscriber := .empty
  subscriptions : Nat := 0
  attempts : Nat := 0
  journal : List JournalEntry := []
  deriving Inhabited

namespace Watcher

/-- A watcher for a workspace. Every project is known to the store and idle. -/
def create (workspace : Workspace) (config : WatchConfig) (launcher : Launcher) : Watcher :=
  { workspace
    filter := .create (some workspace.root) config.ignorePatterns
    launcher
    states := workspace.projects.foldl (fun t p => t.insert p.id .idle) .empty
    store := workspace.projects.foldl (fun s p => s.register p.id) .empty
    cache := .ofMegabytes config.cacheSizeMb }

def withCache (w : Watcher) (cache : Cache) : Watcher :=
  { w with cache }

def placeOf (w : Watcher) (path : Path) : Path :=
  path.normalize w.workspace.root

def projectState? (w : Watcher) (id : String) : Option ProjectState :=
  w.states.get? id

def setState (w : Watcher) (id : String) (state : ProjectState) : Watcher :=
  { w with states := w.states.insert id state }

def note (w : Watcher) (entry : JournalEntry) : Watcher :=
  { w with journal := entry :: w.journal }

/-- Tries to open the session of a project. -/
def openSession (w : Watcher) (p : Project) : Watcher :=
  let serial := w.attempts
  let w := { w.setState p.id .starting with attempts := serial + 1 }
  match w.launcher.attempt serial p with
  | .ok files =>
    let w := { w with sessions := w.sessions.insert p.id { serial, project := p, files } }
    (w.setState p.id .watching).note (.opened serial p)
  | .error _ => (w.setState p.id .error).note (.failed serial p)

/-- Starts watching a project. An ignored one keeps its state, and one without configuration is in
error. -/
def startProject (w : Watcher) (p : Project) : Watcher :=
  if w.filter.isIgnored p.configPath then w
  else if !w.launcher.hasConfig p then w.setState p.id .error
  else w.openSession p

/-- Starts watching every project, unless the watcher is active; tells how many projects are
watched. -/
def start (w : Watcher) : Nat × Watcher :=
  let w :=
    if w.lifecycle = .active then w
    else w.workspace.projects.foldl startProject { w with lifecycle := .active }
  (w.sessions.size, w)

/-- Closes a session; one that complains about it is closed all the same. -/
def closeSession (w : Watcher) (s : WatchSession) : Watcher :=
  w.note (.closed s.serial s.project (w.launcher.closesCleanly s.serial))

/-- Closes every session. Nothing happens to a watcher that is not active and has no session. -/
def stop (w : Watcher) : Watcher :=
  if w.lifecycle ≠ .active ∧ w.sessions.isEmpty then w
  else
    let closed :=
      w.sessions.entries.foldl (fun w (id, s) => (w.closeSession s).setState id .stopped) w
    { closed with sessions := .empty, lifecycle := .stopped }

def flush (w : Watcher) (now : Nat) : Watcher :=
  match w.staged with
  | none => w
  | some s =>
    let w := { w with staged := none }
    match w.store.file? s.project s.file with
    | none => w
    | some bucket => { w with cache := w.cache.set now s.project s.file bucket }

def isStaged (w : Watcher) (project : String) (file : Path) : Bool :=
  w.staged.any fun s => s.project == project && s.file.same file

/-- Stages a bucket in place of the one that is staged. -/
def stage (w : Watcher) (now : Nat) (project : String) (file : Path) : Watcher :=
  if w.isStaged project file then w
  else
    let w := w.flush now
    { w with cache := (w.cache.delete project file).2, staged := some { project, file } }

def onDiagnostic (w : Watcher) (now : Nat) (project : String) (d : Diagnostic) : Watcher :=
  match w.workspace.project? project with
  | none => w
  | some p =>
    let d := { d with file := d.file.normalize p.root }
    let w := w.stage now project d.file
    { w with store := (w.store.insert project d).2 }

def publish (w : Watcher) (summary : PassSummary) : Watcher :=
  { w with subscribers := Subscriber.tell w.subscribers summary }

def summary (w : Watcher) (now : Nat) (project : String) : PassSummary :=
  let tally := (w.store.projectTotals? project).getD {}
  { projectId := project
    projectName := ((w.workspace.project? project).map (·.name)).getD project
    errors := tally.errors
    warnings := tally.warnings
    completedAt := now }

def uncache (w : Watcher) (project : String) (files : List Path) : Watcher :=
  { w with cache := files.foldl (fun c file => (c.delete project file).2) w.cache }

def completePass (w : Watcher) (now : Nat) (project : String) : Watcher :=
  let w := w.flush now
  match w.store.completePass project with
  | (none, _) => w
  | (some pruned, store) =>
    let w := ({ w with store }).uncache project pruned
    let w := { w with lastCompilation := some now }
    w.publish (w.summary now project)

def onPhase (w : Watcher) (now : Nat) (project : String) (message : String) : Watcher :=
  match PhaseSignal.classify message with
  | .passStarted => { w with store := (w.store.beginPass project).2 }
  | .passCompleted => w.completePass now project
  | .other => w

/-- Takes the end of a session that nobody asked for. What it reported stays. -/
def onExit (w : Watcher) (now : Nat) (project : String) : Watcher :=
  match w.sessions.get? project with
  | none => w
  | some s =>
    let w := { w.closeSession s with sessions := w.sessions.erase project }
    (w.flush now).setState project .error

/-- Takes an event of a session. Events of unknown projects are dropped. -/
def handle (w : Watcher) (now : Nat) (e : SessionEvent) : Watcher :=
  if !w.store.contains e.project then w
  else match e with
    | .diagnostic id d => w.onDiagnostic now id d
    | .phase id message => w.onPhase now id message
    | .exited id => w.onExit now id

def enqueue (w : Watcher) (e : SessionEvent) : Watcher :=
  { w with queue := w.queue ++ [e] }

/-- Takes every event of the queue; tells how many there were. -/
def drainQueue (w : Watcher) (now : Nat) : Nat × Watcher :=
  (w.queue.length, w.queue.foldl (fun w e => w.handle now e) { w with queue := [] })

def allDiagnostics (w : Watcher) (now : Nat) : Result :=
  .of now "all" w.store.allDiagnostics false

/-- Looks a file up in the cache, in every project. -/
def lookupFile (w : Watcher) (now : Nat) (path : Path) : Option (List Diagnostic) × Watcher :=
  let w := w.flush now
  let (found, cache) := w.cache.lookupFile now w.store.projectIds (w.placeOf path)
  (found, { w with cache })

/-- What the cache holds for a file. A file that it does not hold has an empty answer. -/
def fileDiagnostics (w : Watcher) (now : Nat) (path : Path) : Result × Watcher :=
  let source := (w.placeOf path).text
  match w.lookupFile now path with
  | (some ds, w) => (.of now source ds true, w)
  | (none, w) => (.empty now source, w)

/-- What is known about the project with a name or id. -/
def packageDiagnostics? (w : Watcher) (now : Nat) (name : String) : Option Result :=
  (w.workspace.named? name).map fun p =>
    .of now name ((w.store.projectDiagnostics? p.id).getD []) false

def hasErrors (w : Watcher) : Bool :=
  w.store.hasErrors

/-- Whether the cache holds an error for a file. -/
def fileHasErrors (w : Watcher) (now : Nat) (path : Path) : Bool × Watcher :=
  let (found, w) := w.lookupFile now path
  (found.any fun ds => ds.any (·.isError), w)

/-- How many errors, warnings and suggestions there are. -/
def diagnosticCount (w : Watcher) : Count :=
  w.store.totals.count

/-- Forgets a file in every project; tells whether there was anything to forget. -/
def clearFile (w : Watcher) (now : Nat) (path : Path) : Bool × Watcher :=
  let w := w.flush now
  let file := w.placeOf path
  let (removed, store) := w.store.removeFile file
  let cache := store.projectIds.foldl (fun c id => (c.delete id file).2) w.cache
  (!removed.isEmpty, { w with store, cache })

def clearAll (w : Watcher) : Watcher :=
  { w with staged := none, store := w.store.clear, cache := w.cache.clear }

def status (w : Watcher) : WatchStatus :=
  { active := w.lifecycle = .active
    mode := w.workspace.mode
    watchedProjects := w.sessions.size
    watchedFiles := w.sessions.values.foldl (fun n s => n + s.files) 0
    lastCompilation := w.lastCompilation
    projects := w.workspace.projects.map fun p =>
      { id := p.id, name := p.name, state := (w.states.get? p.id).getD .idle } }

/-- A cached bucket that the store does not hold like that. -/
def disagreement? (w : Watcher) : Option CacheEntry :=
  w.cache.entries.find? fun e => w.store.file? e.key.project e.file ≠ some e.diagnostics

/-- Checks that every cached bucket is as in the store. -/
def verify (w : Watcher) : Except WatchError Unit :=
  match w.disagreement? with
  | none => .ok ()
  | some e => .error (.invariant ("cache entry " ++ e.render ++ " disagrees with the store"))

/-- Adds a subscriber; tells its number. -/
def subscribe (w : Watcher) : Nat × Watcher :=
  (w.subscriptions,
    { w with
      subscribers := w.subscribers.insert w.subscriptions {}
      subscriptions := w.subscriptions + 1 })

/-- Hands a subscriber what has been published since it asked the last time. -/
def collect (w : Watcher) (n : Nat) : List PassSummary × Watcher :=
  (((w.subscribers.get? n).map (·.pending)).getD [],
    { w with subscribers := w.subscribers.modify n fun s => { s with pending := [] } })

/-- Lets a subscriber go, with all that is still pending for it. -/
def unsubscribe (w : Watcher) (n : Nat) : Watcher :=
  { w with subscribers := w.subscribers.modify n fun _ => { listening := false } }

inductive Operation
  | start
  | stop
  | diagnostic (project : String) (d : Diagnostic)
  | phase (project message : String)
  | exit (project : String)
  | event (e : SessionEvent)
  | enqueue (e : SessionEvent)
  | drainQueue
  | all
  | file (path : Path)
  | package (name : String)
  | hasErrors (path : Option Path)
  | count
  | clearFile (path : Path)
  | clearAll
  | status
  | projectState (id : String)
  | subscribe
  | collect (n : Nat)
  | unsubscribe (n : Nat)
  deriving DecidableEq, Repr, Inhabited

inductive Answer
  | done
  | number (n : Nat)
  | truth (b : Bool)
  | result (r : Result)
  | package (r : Option Result)
  | count (c : Count)
  | status (s : WatchStatus)
  | projectState (s : Option ProjectState)
  | summaries (ss : List PassSummary)
  deriving DecidableEq, Repr, Inhabited

def perform (w : Watcher) (now : Nat) : Operation → Answer × Watcher
  | .start => w.start.map .number id
  | .stop => (.done, w.stop)
  | .diagnostic id d => (.done, w.onDiagnostic now id d)
  | .phase id message => (.done, w.onPhase now id message)
  | .exit id => (.done, w.onExit now id)
  | .event e => (.done, w.handle now e)
  | .enqueue e => (.truth true, w.enqueue e)
  | .drainQueue => (w.drainQueue now).map .number id
  | .all => (.result (w.allDiagnostics now), w)
  | .file path => (w.fileDiagnostics now path).map .result id
  | .package name => (.package (w.packageDiagnostics? now name), w)
  | .hasErrors none => (.truth w.hasErrors, w)
  | .hasErrors (some path) => (w.fileHasErrors now path).map .truth id
  | .count => (.count w.diagnosticCount, w)
  | .clearFile path => (w.clearFile now path).map .truth id
  | .clearAll => (.done, w.clearAll)
  | .status => (.status w.status, w)
  | .projectState id => (.projectState (w.projectState? id), w)
  | .subscribe => w.subscribe.map .number id
  | .collect n => (w.collect n).map .summaries id
  | .unsubscribe n => (.truth true, w.unsubscribe n)

end Watcher

end DiagnosticWatch
