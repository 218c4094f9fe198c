import DiagnosticWatch.Daemon.Server
import DiagnosticWatch.Proofs.Watcher.Sessions
import Mathlib.Data.List.Induction

/-!
# The end of a daemon

A daemon takes events and lines in whatever order they come, and whatever becomes of its answers. It
goes on until it has delivered the answer to a request to shut down; then its watcher is stopped and
every session is closed. Nothing else ends it, and a line that is no request changes nothing.

A request to shut down whose answer does not reach the client is lost: the daemon goes on as if it
had never come (`undelivered_shutdown_lost`).
-/

namespace DiagnosticWatch

/-- Whether an arrival asks the daemon to shut down, and its answer is delivered. -/
def Arrival.ends : Arrival → Bool
  | .line (some text) delivered => Daemon.asksShutdown text && delivered
  | _ => false

namespace Daemon

def takeAt (d : Daemon) (timed : Nat × Arrival) : Option Response × Daemon :=
  d.take timed.1 timed.2

/-- The daemon behind some arrivals, each at its time. -/
def after (d : Daemon) (arrivals : List (Nat × Arrival)) : Daemon :=
  (runAll takeAt arrivals d).2

def watcherBehind (w : Watcher) (now : Nat) : Arrival → Watcher
  | .event e => w.handle now e
  | .line none _ => w
  | .line (some text) _ => (answerLine w now text).2

variable {d : Daemon} {w : Watcher} {a : Arrival} {now : Nat}

theorem take_of_ended (ended : d.running = false) (now : Nat) (a : Arrival) :
    (d.take now a).2 = d := by
  cases a with
  | event e => simp [take, ended]
  | line text delivered => cases text <;> simp [take, ended]

theorem take_of_running (running : d.running = true) (now : Nat) (a : Arrival) :
    (d.take now a).2 =
      if a.ends then { watcher := (watcherBehind d.watcher now a).stop, running := false }
      else { watcher := watcherBehind d.watcher now a, running := true } := by
  obtain ⟨w, _⟩ := d
  subst running
  cases a with
  | event e => rfl
  | line text delivered =>
      cases text with
      | none => rfl
      | some text => simp [take, watcherBehind, finish, Arrival.ends]

/-- An arrival that does not end the daemon, and that the watcher does not notice, changes
nothing. -/
theorem take_of_unnoticed (goesOn : a.ends = false)
    (same : watcherBehind d.watcher now a = d.watcher) :
    (d.take now a).2 = d := by
  cases running : d.running with
  | false => exact take_of_ended running now a
  | true =>
      rw [take_of_running running, goesOn, if_neg Bool.false_ne_true, same, ← running]

/-- Whether an answer is delivered makes a difference only to the request to shut down. -/
theorem take_line_of_not_asksShutdown {text : String} (h : asksShutdown text = false) (d : Daemon)
    (now : Nat) :
    d.take now (.line (some text) false) = d.take now (.line (some text) true) := by
  simp [take, h]

/-- A line that is no request is answered with what is wrong about it. -/
theorem answerLine_of_error {text : String} {rejection : Json.Rejection}
    (h : Request.parse text = .error rejection) (w : Watcher) (now : Nat) :
    answerLine w now text = (.error ("invalid request: " ++ rejection.message), w) := by
  rw [answerLine, h]

theorem asksShutdown_of_error {text : String} {rejection : Json.Rejection}
    (h : Request.parse text = .error rejection) : asksShutdown text = false := by
  rw [asksShutdown, h]

/-- The request to shut down changes nothing by itself. -/
theorem answerLine_of_asksShutdown {text : String} (h : asksShutdown text = true) (w : Watcher)
    (now : Nat) : answerLine w now text = (.ok, w) := by
  rw [asksShutdown] at h
  rw [answerLine]
  cases parsed : Request.parse text with
  | error rejection =>
      rw [parsed] at h
      cases h
  | ok r =>
      rw [parsed] at h
      obtain rfl : r = .shutdown := eq_of_beq h
      rfl

section Line

variable {text : String}

theorem take_of_error {rejection : Json.Rejection} (h : Request.parse text = .error rejection)
    (d : Daemon) (now : Nat) (delivered : Bool) :
    (d.take now (.line (some text) delivered)).2 = d ∧
      (d.running = true → (d.take now (.line (some text) delivered)).1 =
        some (.error ("invalid request: " ++ rejection.message))) := by
  have answered := answerLine_of_error h d.watcher now
  constructor
  · apply take_of_unnoticed
    · simp [Arrival.ends, asksShutdown_of_error h]
    · rw [watcherBehind, answered]
  · intro running
    simp [take, running, answered]

theorem take_lost_shutdown (asks : asksShutdown text = true) (d : Daemon) (now : Nat) :
    (d.take now (.line (some text) false)).2 = d := by
  apply take_of_unnoticed
  · simp [Arrival.ends]
  · rw [watcherBehind, answerLine_of_asksShutdown asks]

theorem take_delivered_shutdown (asks : asksShutdown text = true) (running : d.running = true)
    (now : Nat) : (d.take now (.line (some text) true)).2 = d.finish := by
  have ends : (Arrival.line (some text) true).ends = true := by simp [Arrival.ends, asks]
  rw [take_of_running running, if_pos ends, watcherBehind, answerLine_of_asksShutdown asks]
  rfl

end Line

theorem after_concat (d : Daemon) (arrivals : List (Nat × Arrival)) (now : Nat) (a : Arrival) :
    d.after (arrivals ++ [(now, a)]) = ((d.after arrivals).take now a).2 :=
  runAll_concat_state arrivals (now, a) d

theorem after_append_cons (d : Daemon) (before : List (Nat × Arrival)) (now : Nat) (a : Arrival)
    (rest : List (Nat × Arrival)) :
    d.after (before ++ (now, a) :: rest) = (((d.after before).take now a).2).after rest := by
  rw [after, runAll_append]
  rfl

theorem after_of_ended (ended : d.running = false) (arrivals : List (Nat × Arrival)) :
    d.after arrivals = d :=
  runAll_preserves (P := fun e => e = d)
    (fun _ timed same => by rw [same]; exact take_of_ended ended timed.1 timed.2) arrivals rfl

/-- A daemon goes on just as long as nothing ends it. -/
theorem running_after (running : d.running = true) (arrivals : List (Nat × Arrival)) :
    (d.after arrivals).running = !arrivals.any (·.2.ends) := by
  induction arrivals generalizing d with
  | nil => exact running
  | cons timed arrivals ih =>
      have first := take_of_running running timed.1 timed.2
      show ((d.takeAt timed).2.after arrivals).running = _
      rw [takeAt, first, List.any_cons]
      cases ends : timed.2.ends with
      | true =>
          rw [if_pos rfl, after_of_ended rfl]
          rfl
      | false => simpa using ih (d := { watcher := watcherBehind d.watcher timed.1 timed.2 }) rfl

/-- Whatever is asked, the sessions are left alone. -/
theorem answer_desk (w : Watcher) (now : Nat) (r : Request) : (answer w now r).2.desk = w.desk := by
  cases r with
  | fileDiagnostics path => exact (Watcher.perform_file_onlyData w now ⟨path⟩).desk
  | hasErrors path =>
      cases path with
      | none => rfl
      | some path => exact (Watcher.lookupFile_onlyData w now ⟨path⟩).desk
  | clearFile path => exact (Watcher.clearFile_onlyData w now ⟨path⟩).desk
  | _ => rfl

theorem answerLine_desk (w : Watcher) (now : Nat) (text : String) :
    (answerLine w now text).2.desk = w.desk := by
  rw [answerLine]
  split
  · exact answer_desk w now _
  · rfl

/-- A watcher that is at work, its sessions in order. -/
structure AtWork (w : Watcher) : Prop where
  orderly : w.desk.Orderly
  active : w.lifecycle = .active

theorem AtWork.congr {v : Watcher} (h : AtWork w) (same : v.desk = w.desk) : AtWork v where
  orderly := same ▸ h.orderly
  active := (congrArg Desk.lifecycle same).trans h.active

theorem AtWork.handle (h : AtWork w) (now : Nat) (e : SessionEvent) : AtWork (w.handle now e) where
  orderly := Watcher.orderly_handle h.orderly now e
  active := (Watcher.handle_lifecycle w now e).trans h.active

theorem AtWork.arrival (h : AtWork w) (now : Nat) (a : Arrival) :
    AtWork (watcherBehind w now a) := by
  cases a with
  | event e => exact h.handle now e
  | line text delivered =>
      cases text with
      | none => exact h
      | some text => exact h.congr (answerLine_desk w now text)

/-- A daemon that is launched in any state of its watcher is at work. -/
theorem atWork_launch {workspace : Workspace} (distinct : (workspace.projects.map (·.id)).Nodup)
    (config : WatchConfig) (launcher : Launcher) (size : Option (Nat × Nat))
    (steps : List (Launcher × Nat × Watcher.Operation)) :
    AtWork (launch ((Watcher.fresh workspace config launcher size).afterIn steps)).watcher := by
  have site := Watcher.fresh_workspace workspace config launcher size
  have same := Watcher.afterIn_workspace (Watcher.fresh workspace config launcher size) steps
  have orderly : ((Watcher.fresh workspace config launcher size).afterIn steps).desk.Orderly :=
    Watcher.afterIn_orderly (by rwa [site])
      (Watcher.fresh_orderly workspace config launcher size) steps
  constructor
  · apply Watcher.orderly_start _ orderly
    rwa [same, site]
  · exact Watcher.lifecycle_start _

/-- Nothing but the end of the daemon keeps its watcher from working. -/
theorem AtWork.after (h : AtWork d.watcher) (running : d.running = true)
    {arrivals : List (Nat × Arrival)} (endless : ∀ timed ∈ arrivals, timed.2.ends = false) :
    AtWork (d.after arrivals).watcher := by
  induction arrivals generalizing d with
  | nil => exact h
  | cons timed arrivals ih =>
      obtain ⟨first, rest⟩ := List.forall_mem_cons.1 endless
      have next := take_of_running running timed.1 timed.2
      rw [first, if_neg Bool.false_ne_true] at next
      show AtWork ((d.takeAt timed).2.after arrivals).watcher
      rw [takeAt, next]
      exact ih (d := { watcher := watcherBehind d.watcher timed.1 timed.2 })
        (h.arrival timed.1 timed.2) rfl rest

/-- Every session is closed, each just once. -/
structure AllClosed (w : Watcher) : Prop where
  stopped : w.lifecycle = .stopped
  none : w.sessions = .empty
  once : ∀ n p, .opened n p ∈ w.journal → w.desk.closings n = 1

theorem AtWork.stop (h : AtWork w) : AllClosed w.stop where
  stopped := by
    have busy : ¬(w.lifecycle ≠ .active ∧ w.sessions.isEmpty = true) := fun idle => idle.1 h.active
    exact congrArg Desk.lifecycle (Watcher.stop_desk busy)
  none := Watcher.sessions_stop h.orderly
  once := by
    intro n p opened
    obtain ⟨-, account⟩ :=
      Watcher.balance_of_opened (Watcher.orderly_stop h.orderly).toAccounted opened
    refine (account.resolve_left ?_).2
    rintro ⟨⟨id, s, listed, -⟩, -⟩
    rw [Watcher.sessions_stop h.orderly] at listed
    cases listed

/-- A launched daemon runs just until it has delivered the answer to a request to shut down. That
arrival is the last one it takes; it stops the watcher as the arrivals before have left it, with
every session closed. A line that is no text or no request changes nothing, and its answer tells
what is wrong; a request to shut down that cannot be answered changes nothing either; and for any
other line it makes no difference whether its answer is delivered. -/
theorem ends_with_delivered_shutdown {workspace : Workspace}
    (distinct : (workspace.projects.map (·.id)).Nodup) (config : WatchConfig)
    (launcher : Launcher) (size : Option (Nat × Nat))
    (steps : List (Launcher × Nat × Watcher.Operation)) :
    let d := launch ((Watcher.fresh workspace config launcher size).afterIn steps)
    (∀ arrivals, (d.after arrivals).running = true ↔ ∀ timed ∈ arrivals, timed.2.ends = false) ∧
    (∀ before now text rest, (∀ timed ∈ before, timed.2.ends = false) → asksShutdown text = true →
      d.after (before ++ (now, .line (some text) true) :: rest) = (d.after before).finish ∧
        AllClosed (d.after before).finish.watcher) ∧
    ∀ arrivals now,
      (∀ delivered, d.after (arrivals ++ [(now, .line none delivered)]) = d.after arrivals) ∧
      (∀ text rejection delivered, Request.parse text = .error rejection →
        d.after (arrivals ++ [(now, .line (some text) delivered)]) = d.after arrivals ∧
        ((d.after arrivals).running = true →
          ((d.after arrivals).take now (.line (some text) delivered)).1 =
            some (.error ("invalid request: " ++ rejection.message)))) ∧
      (∀ text, asksShutdown text = true →
        d.after (arrivals ++ [(now, .line (some text) false)]) = d.after arrivals) ∧
      ∀ text, asksShutdown text = false →
        d.after (arrivals ++ [(now, .line (some text) false)]) =
          d.after (arrivals ++ [(now, .line (some text) true)]) := by
  intro d
  have working : AtWork d.watcher := atWork_launch distinct config launcher size steps
  have runs (arrivals : List (Nat × Arrival)) :
      (d.after arrivals).running = true ↔ ∀ timed ∈ arrivals, timed.2.ends = false := by
    rw [running_after rfl]
    simp
  refine ⟨runs, ?_, ?_⟩
  · intro before now text rest endless asks
    have running : (d.after before).running = true := (runs before).2 endless
    constructor
    · rw [after_append_cons, take_delivered_shutdown asks running]
      exact after_of_ended rfl rest
    · exact (working.after rfl endless).stop
  · intro arrivals now
    simp only [after_concat]
    refine ⟨fun _ => take_of_unnoticed rfl rfl, ?_, ?_, ?_⟩
    · intro text rejection delivered wrong
      exact take_of_error wrong (d.after arrivals) now delivered
    · intro text asks
      exact take_lost_shutdown asks (d.after arrivals) now
    · intro text other
      rw [take_line_of_not_asksShutdown other]

/-- An event, two lines that are no request, a question whose answer is lost, and a request to shut
down whose answer is lost as well. -/
def lostAnswers : List (Nat × Arrival) :=
  [(1, .event (Watcher.soloError "a.ts" 1)), (2, .line none false),
    (3, .line (some "Shutdown") true), (4, .line (some "\"Count\"\n") false),
    (5, .line (some "\"Shutdown\"\n") false)]

theorem ends_with_delivered_shutdown_lostAnswers :
    let d := launch (Watcher.fresh Watcher.soloWorkspace {} Watcher.willing none)
    let asked := (6, Arrival.line (some "\"Shutdown\"\n") true)
    let late := (7, Arrival.event (Watcher.soloError "b.ts" 2))
    (d.after lostAnswers).running = true ∧
      (∃ s, (d.after lostAnswers).watcher.sessions.get? "app" = some s) ∧
      d.after (lostAnswers ++ [asked, late]) = (d.after lostAnswers).finish ∧
      AllClosed (d.after (lostAnswers ++ [asked, late])).watcher := by
  intro d asked late
  have distinct : (Watcher.soloWorkspace.projects.map (·.id)).Nodup := by decide
  obtain ⟨runs, ended, -⟩ :=
    ends_with_delivered_shutdown distinct {} Watcher.willing none ([] : List _)
  have endless : ∀ timed ∈ lostAnswers, timed.2.ends = false := by decide +kernel
  have asks : asksShutdown "\"Shutdown\"\n" = true := by decide +kernel
  have watched : ((d.after lostAnswers).watcher.sessions.get? "app").isSome = true := by
    decide +kernel
  obtain ⟨last, closed⟩ := ended lostAnswers 6 _ [late] endless asks
  exact ⟨(runs lostAnswers).2 endless, Option.isSome_iff_exists.1 watched, last, last ▸ closed⟩

/-- The request to shut down is well formed and it is taken, but the daemon goes on watching if the
client does not wait for the answer. -/
theorem undelivered_shutdown_lost :
    let d := launch (Watcher.fresh Watcher.soloWorkspace {} Watcher.willing none)
    let asked := d.after [(1, .line (some "\"Shutdown\"\n") false)]
    asksShutdown "\"Shutdown\"\n" = true ∧ asked.running = true ∧
      asked.watcher.lifecycle = .active ∧ asked.watcher.sessions.isEmpty = false := by
  decide +kernel

end Daemon

end DiagnosticWatch
