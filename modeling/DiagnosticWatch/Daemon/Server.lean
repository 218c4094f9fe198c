import DiagnosticWatch.Daemon.Message
import DiagnosticWatch.Watcher.Basic

/-!
# The daemon

The daemon takes session events and request lines one at a time, so that a query sees what every
event before it left. It ends with the first request to shut down whose answer could be delivered.
-/

namespace DiagnosticWatch

structure Daemon where
  watcher : Watcher
  running : Bool := true
  deriving Inhabited

/-- What the daemon takes from outside: an event of a session, or a line from a client together with
whether the answer to it will reach the client. A line that is no text is never answered. -/
inductive Arrival
  | event (e : SessionEvent)
  | line (text : Option String) (delivered : Bool)
  deriving DecidableEq, Repr, Inhabited

namespace Daemon

def socketPath (root : Path) : Path :=
  (root.join ⟨".tscd"⟩).join ⟨"daemon.sock"⟩

def launch (w : Watcher) : Daemon :=
  { watcher := w.start.2 }

def answer (w : Watcher) (now : Nat) : Request → Response × Watcher
  | .allDiagnostics => (.diagnostics (w.allDiagnostics now), w)
  | .fileDiagnostics path => (w.fileDiagnostics now ⟨path⟩).map .diagnostics id
  | .packageDiagnostics name => (.package (w.packageDiagnostics? now name), w)
  | .hasErrors none => (.hasErrors w.hasErrors, w)
  | .hasErrors (some path) => (w.fileHasErrors now ⟨path⟩).map .hasErrors id
  | .count => (.count w.diagnosticCount, w)
  | .clearFile path => (w.clearFile now ⟨path⟩).map .cleared id
  | .clearAll => (.cleared true, w.clearAll)
  | .status => (.status w.status, w)
  | .cacheStats => (.cacheStats w.cache.stats, w)
  | .shutdown => (.ok, w)

def answerLine (w : Watcher) (now : Nat) (line : String) : Response × Watcher :=
  match Request.parse line with
  | .ok r => answer w now r
  | .error rejection => (.error ("invalid request: " ++ rejection.message), w)

def asksShutdown (line : String) : Bool :=
  match Request.parse line with
  | .ok r => r == .shutdown
  | .error _ => false

/-- Ends the daemon: every session is closed. -/
def finish (d : Daemon) : Daemon :=
  { watcher := d.watcher.stop, running := false }

/-- Takes one arrival; what is answered, if anything is. A daemon that has ended takes nothing. -/
def take (d : Daemon) (now : Nat) : Arrival → Option Response × Daemon
  | .event e => (none, if d.running then { d with watcher := d.watcher.handle now e } else d)
  | .line none _ => (none, d)
  | .line (some text) delivered =>
    if !d.running then (none, d)
    else
      let (response, watcher) := answerLine d.watcher now text
      let d := { d with watcher }
      (some response, if asksShutdown text && delivered then d.finish else d)

/-- The first line of the bytes that a client sent, with the line feed that ends it; nothing if it
is no text. -/
def firstLine? (bytes : ByteArray) : Option String :=
  match byteLines bytes.toList with
  | [] => some ""
  | line :: more =>
    let ended := !more.isEmpty || bytes.toList.getLast? = some 10
    String.fromUTF8? ⟨(if ended then line ++ [10] else line).toArray⟩

end Daemon

end DiagnosticWatch
