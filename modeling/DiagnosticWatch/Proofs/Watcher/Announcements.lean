import DiagnosticWatch.Proofs.Watcher.Happenings
import DiagnosticWatch.Proofs.Watcher.Held

/-!
# What subscribers are told

Whoever listens is told of every complete pass of a registered project, and of nothing else. What is
told about a pass is read off the buckets that are left behind it, and it counts exactly the
diagnostics of that pass (`Workspace.announcement?`). Each operation passes its announcements on to
all who listen (`subscribers_perform`), so what one of them receives follows from the history alone:
whether others are still there makes no difference.
-/

namespace DiagnosticWatch

/-- What a happening announces: if it completes a pass of a registered project, how many errors and
warnings that pass had. -/
def Workspace.announcement? (workspace : Workspace) (past : List Happening) (now : Nat) :
    Happening → Option PassSummary
  | .event (.phase id message) =>
    if PhaseSignal.classify message = .passCompleted then
      (workspace.project? id).map fun p =>
        { projectId := id
          projectName := p.name
          errors := (p.openDiagnostics past).countP (·.category == .error)
          warnings := (p.openDiagnostics past).countP (·.category == .warning)
          completedAt := now }
    else none
  | _ => none

/-- What a history announces behind a past. -/
def Workspace.announcements (workspace : Workspace) (past : List Happening) :
    List (Nat × Happening) → List PassSummary
  | [] => []
  | h :: later =>
    (workspace.announcement? past h.1 h.2).toList ++ workspace.announcements (past ++ [h.2]) later

theorem Workspace.announcements_append (workspace : Workspace) (past : List Happening)
    (hs later : List (Nat × Happening)) :
    workspace.announcements past (hs ++ later) =
      workspace.announcements past hs ++ workspace.announcements (past ++ hs.map (·.2)) later := by
  induction hs generalizing past with
  | nil => simp [announcements]
  | cons h hs ih => simp [announcements, ih, List.append_assoc]

namespace Subscriber

variable {subscribers : Table Nat Subscriber} {n : Nat} {s : Subscriber}

theorem get?_tell (here : subscribers.get? n = some s) (listening : s.listening = true)
    (summary : PassSummary) :
    (tell subscribers summary).get? n = some { s with pending := s.pending ++ [summary] } := by
  rw [tell, Table.get?_map, Table.get?_filter, here, Option.filter, if_pos listening]
  rfl

/-- Whoever listens stays and hears all news in order. -/
theorem get?_foldl_tell (here : subscribers.get? n = some s) (listening : s.listening = true)
    (news : List PassSummary) :
    (news.foldl tell subscribers).get? n = some { s with pending := s.pending ++ news } := by
  induction news generalizing subscribers s with
  | nil => rw [List.foldl_nil, here, List.append_nil]
  | cons summary news ih =>
      rw [List.foldl_cons, ih (get?_tell here listening summary) listening, List.append_assoc]
      rfl

end Subscriber

namespace Watcher

def Operation.leaves : Operation → Bool
  | .unsubscribe _ => true
  | _ => false

/-- What a subscriber is handed during a run, and what is left for it behind the run. -/
def received (w : Watcher) (n : Nat) : List (Nat × Operation) → List PassSummary
  | [] => (w.collect n).1
  | timed :: ops =>
    (if timed.2 = .collect n then (w.collect n).1 else []) ++ (w.performAt timed).2.received n ops

variable {w : Watcher} {past : List Happening}

theorem subscribers_onPhase (f : w.Follows past) (now : Nat) (id message : String) :
    (w.onPhase now id message).subscribers =
      (w.workspace.announcement? past now (.event (.phase id message))).toList.foldl
        Subscriber.tell w.subscribers := by
  simp only [onPhase, Workspace.announcement?]
  cases PhaseSignal.classify message with
  | passStarted => simp
  | other => simp
  | passCompleted =>
      cases hp : w.workspace.project? id with
      | none =>
          rw [completePass_of_unknown (f.unknown id hp), (flush_onlyData w now).subscribers]
          simp
      | some p =>
          obtain rfl := Workspace.id_of_project? hp
          have known := f.known p hp
          have listed := (ProjectIndex.brings_history p past).diagnostics_completePass
          have counted (c : Category) :
              (past.foldl (ProjectIndex.undergo p) {}).completePass.2.diagnostics.countP
                  (·.category == c) =
                (p.openDiagnostics past).countP (·.category == c) := by
            rw [listed]
            exact (List.mergeSort_perm _ _).countP_eq _
          rw [subscribers_completePass hp known]
          simp [counted]

/-- Those who listen hear what an event announces, and nothing else. -/
theorem subscribers_handle (f : w.Follows past) (now : Nat) (e : SessionEvent) :
    (w.handle now e).subscribers =
      (w.workspace.announcement? past now (.event e)).toList.foldl Subscriber.tell
        w.subscribers := by
  refine handle_cases ?unknown ?diagnostic ?phase ?exited e
  case unknown =>
    intro e unknown
    cases e with
    | diagnostic id d => rfl
    | exited id => rfl
    | phase id message =>
        cases hp : w.workspace.project? id with
        | none => simp [Workspace.announcement?, hp]
        | some p =>
            obtain rfl := Workspace.id_of_project? hp
            exact absurd ((f.known p hp).symm.trans unknown) (Option.some_ne_none _)
  case diagnostic => exact fun id d _ => (onDiagnostic_onlyData w now id d).subscribers
  case phase => exact fun id message _ => subscribers_onPhase f now id message
  case exited => exact fun id _ => onExit_subscribers w now id

theorem subscribers_handleAll (f : w.Follows past) (now : Nat) (es : List SessionEvent) :
    (es.foldl (fun w e => w.handle now e) w).subscribers =
      (w.workspace.announcements past (es.map fun e => (now, .event e))).foldl
        Subscriber.tell w.subscribers := by
  induction es generalizing w past with
  | nil => simp [Workspace.announcements]
  | cons e es ih =>
      have workspace : (w.handle now e).workspace = w.workspace :=
        congrArg Prod.fst (handle_setup w now e)
      rw [List.foldl_cons, ih (f.handle now e), subscribers_handle f, workspace, List.map_cons,
        Workspace.announcements, List.foldl_append]

/-- What an operation means to the subscribers: one of them comes, picks up what is pending or
leaves, or they are told what it announces. -/
theorem subscribers_perform (f : w.Follows past) (now : Nat) (op : Operation) :
    (w.perform now op).2.subscribers =
      match op with
      | .subscribe => w.subscribers.insert w.subscriptions {}
      | .collect n => w.subscribers.modify n fun s => { s with pending := [] }
      | .unsubscribe n => w.subscribers.modify n fun _ => { listening := false }
      | op =>
        (w.workspace.announcements past ((w.happenings op).map (now, ·))).foldl
          Subscriber.tell w.subscribers := by
  cases op with
  | start => exact (start_onlySessions w).subscribers
  | stop => exact (stop_onlySessions w).subscribers
  | diagnostic id d => exact (onDiagnostic_onlyData w now id d).subscribers
  | phase id message =>
      simpa [perform, happenings, taken, Workspace.announcements] using
        subscribers_onPhase f now id message
  | exit id => exact onExit_subscribers w now id
  | event e =>
      simpa [perform, happenings, taken, Workspace.announcements] using subscribers_handle f now e
  | drainQueue =>
      have taken : ({ w with queue := [] } : Watcher).Follows past := f.congr rfl rfl
      have heard := subscribers_handleAll taken now w.queue
      simpa [happenings, Watcher.taken, perform, drainQueue, Function.comp_def] using heard
  | file path => exact (perform_file_onlyData w now path).subscribers
  | hasErrors path => exact (perform_hasErrors_onlyData w now path).subscribers
  | clearFile path => exact (clearFile_onlyData w now path).subscribers
  | _ => rfl

/-- Only what is put into the queue or taken from it changes it, and only who subscribes is
counted. -/
theorem intake_perform (w : Watcher) (now : Nat) (op : Operation) :
    (w.perform now op).2.intake =
      match op with
      | .enqueue e => (w.queue ++ [e], w.subscriptions)
      | .drainQueue => ([], w.subscriptions)
      | .subscribe => (w.queue, w.subscriptions + 1)
      | _ => w.intake := by
  cases op with
  | start => exact (start_onlySessions w).intake
  | stop => exact (stop_onlySessions w).intake
  | diagnostic id d => exact (onDiagnostic_onlyData w now id d).intake
  | phase id message => exact onPhase_intake w now id message
  | exit id => exact onExit_intake w now id
  | event e => exact handle_intake w now e
  | drainQueue =>
      have keep (v : Watcher) (e : SessionEvent) (h : v.intake = ([], w.subscriptions)) :
          (v.handle now e).intake = ([], w.subscriptions) :=
        (handle_intake v now e).trans h
      exact handleAll_preserves keep w.queue (v := { w with queue := [] }) rfl
  | file path => exact (perform_file_onlyData w now path).intake
  | hasErrors path => exact (perform_hasErrors_onlyData w now path).intake
  | clearFile path => exact (clearFile_onlyData w now path).intake
  | _ => rfl

/-- Subscribers are numbered in the order in which they come, whoever has left. -/
theorem subscriptions_perform (w : Watcher) (now : Nat) (op : Operation) :
    (w.perform now op).2.subscriptions =
      w.subscriptions + if op = .subscribe then 1 else 0 := by
  have counted := congrArg Prod.snd (intake_perform w now op)
  cases op <;> simpa [intake] using counted

theorem subscriptions_after (w : Watcher) (ops : List (Nat × Operation)) :
    (w.after ops).subscriptions =
      w.subscriptions + ops.countP fun timed => timed.2 = .subscribe := by
  induction ops generalizing w with
  | nil => rfl
  | cons timed ops ih =>
      have rest := ih (w.performAt timed).2
      rw [performAt, subscriptions_perform] at rest
      rw [List.countP_cons]
      simp only [decide_eq_true_eq]
      exact rest.trans (by omega)

/-- What has reached a subscriber behind an operation, if it stays: what it has been handed already
is no longer pending. -/
theorem subscriber_perform (f : w.Follows past) {n : Nat} {s : Subscriber}
    (hs : w.subscribers.get? n = some s) (listening : s.listening = true)
    (numbered : n < w.subscriptions) (now : Nat) {op : Operation} (stays : op ≠ .unsubscribe n) :
    (w.perform now op).2.subscribers.get? n =
      some { s with
        pending := (if op = .collect n then [] else s.pending) ++
          w.workspace.announcements past ((w.happenings op).map (now, ·)) } := by
  rw [subscribers_perform f]
  split
  · rw [Table.get?_insert, if_neg (Nat.ne_of_gt numbered), hs]
    simp [happenings, taken, Workspace.announcements]
  · rename_i m
    rw [Table.get?_modify, hs]
    by_cases same : n = m <;> simp [same, eq_comm, happenings, taken, Workspace.announcements]
  · rename_i m
    have other : n ≠ m := by simpa [eq_comm] using stays
    rw [Table.get?_modify, if_neg other, hs]
    simp [happenings, taken, Workspace.announcements]
  · rename_i away _
    rw [Subscriber.get?_foldl_tell hs listening, if_neg (away n)]

/-- A subscriber that stays receives what it has not been handed yet, and then everything that is
announced. -/
theorem received_eq (f : w.Follows past) {n : Nat} {s : Subscriber}
    (hs : w.subscribers.get? n = some s) (listening : s.listening = true)
    (numbered : n < w.subscriptions) {ops : List (Nat × Operation)}
    (stays : ∀ timed ∈ ops, timed.2 ≠ .unsubscribe n) :
    w.received n ops = s.pending ++ w.workspace.announcements past (w.history ops) := by
  have collected : (w.collect n).1 = s.pending := by simp [collect, hs]
  induction ops generalizing w past s with
  | nil => simp [received, collected, history, Workspace.announcements]
  | cons timed ops ih =>
      have workspace : (w.performAt timed).2.workspace = w.workspace :=
        congrArg Prod.fst (perform_setup w timed.1 timed.2)
      have next := subscriber_perform f hs listening numbered timed.1
        (stays timed List.mem_cons_self)
      have later : n < (w.perform timed.1 timed.2).2.subscriptions := by
        rw [subscriptions_perform]
        exact Nat.lt_add_right _ numbered
      have rest := ih (f.perform timed.1 timed.2) next listening later
        (fun timed h => stays timed (List.mem_cons_of_mem _ h)) (by simp [collect, next])
      have made : (w.happenings timed.2).map (Prod.snd ∘ (timed.1, ·)) = w.happenings timed.2 :=
        List.map_id _
      rw [received, history, Workspace.announcements_append, List.map_map, made, collected]
      simp only [performAt] at rest workspace ⊢
      rw [rest, workspace]
      split <;> simp

/-- What happens in a run does not depend on who listens. -/
theorem history_congr {v : Watcher} (workspace : v.workspace = w.workspace)
    (queue : v.queue = w.queue) (ops : List (Nat × Operation)) : v.history ops = w.history ops := by
  induction ops generalizing v w with
  | nil => rfl
  | cons timed ops ih =>
      have here : v.happenings timed.2 = w.happenings timed.2 := by
        cases timed.2 <;> simp [happenings, taken, placeOf, workspace, queue]
      have next : (v.performAt timed).2.workspace = (w.performAt timed).2.workspace := by
        have kept (u : Watcher) : (u.performAt timed).2.workspace = u.workspace :=
          congrArg Prod.fst (perform_setup u timed.1 timed.2)
        rw [kept, kept, workspace]
      have left : (v.performAt timed).2.queue = (w.performAt timed).2.queue := by
        have left (u : Watcher) := congrArg Prod.fst (intake_perform u timed.1 timed.2)
        refine (left v).trans (Eq.trans ?_ (left w).symm)
        split <;> simp [intake, queue]
      rw [history, history, here, ih next left]

/-- The same run in which nobody leaves. -/
def Operation.stayed (ops : List (Nat × Operation)) : List (Nat × Operation) :=
  ops.filter fun timed => !timed.2.leaves

theorem history_stayed (w : Watcher) (ops : List (Nat × Operation)) :
    w.history (Operation.stayed ops) = w.history ops := by
  induction ops generalizing w with
  | nil => rfl
  | cons timed ops ih =>
      cases leaves : timed.2.leaves with
      | false =>
          rw [Operation.stayed, List.filter_cons_of_pos (by simp [leaves]), history, history]
          exact congrArg _ (ih _)
      | true =>
          obtain ⟨now, op⟩ := timed
          obtain ⟨n, rfl⟩ : ∃ n, op = .unsubscribe n := by
            cases op <;> simp_all [Operation.leaves]
          have gone : (w.unsubscribe n).history ops = w.history ops :=
            history_congr (w := w) (v := w.unsubscribe n) rfl rfl ops
          rw [Operation.stayed, List.filter_cons_of_neg (by simp [leaves])]
          exact (ih w).trans gone.symm

/-- Whoever subscribes hears what is announced from then on. -/
theorem received_behind (f : w.Follows past) {later : List (Nat × Operation)}
    (stays : ∀ timed ∈ later, timed.2 ≠ .unsubscribe w.subscribe.1) :
    w.subscribe.2.received w.subscribe.1 later =
      w.workspace.announcements past (w.subscribe.2.history later) := by
  have subscribed : w.subscribe.2.Follows past := f.congr rfl rfl
  have here : w.subscribe.2.subscribers.get? w.subscribe.1 = some {} := by
    simp [subscribe, Table.get?_insert]
  exact received_eq subscribed here rfl (Nat.lt_succ_self _) stays

/-- A subscription has the same number, and the same happens behind it, if nobody leaves. -/
theorem subscribe_stayed (w : Watcher) (before later : List (Nat × Operation)) :
    (w.after (Operation.stayed before)).subscribe.1 = (w.after before).subscribe.1 ∧
      (w.after (Operation.stayed before)).subscribe.2.history (Operation.stayed later) =
        (w.after before).subscribe.2.history later := by
  constructor
  · have counted : (Operation.stayed before).countP (fun timed => timed.2 = .subscribe) =
        before.countP fun timed => timed.2 = .subscribe := by
      rw [Operation.stayed, List.countP_filter]
      apply List.countP_congr
      rintro ⟨now, op⟩ _
      cases op <;> simp [Operation.leaves]
    have number := subscriptions_after w (Operation.stayed before)
    rw [counted, ← subscriptions_after w before] at number
    exact number
  · -- Both histories are what is left of one and the same when the common part in front is taken
    -- away.
    have whole := history_stayed w (before ++ (0, .subscribe) :: later)
    have split : Operation.stayed (before ++ (0, .subscribe) :: later) =
        Operation.stayed before ++ (0, .subscribe) :: Operation.stayed later :=
      List.filter_append ..
    rw [split, history_append, history_append, history_stayed] at whole
    exact List.append_cancel_left whole

/-- A subscriber that stays is told of every complete pass that is handled for a registered project
behind its subscription, in order and of nothing else. It is told how many errors and warnings were
handled for the project since the pass before, without those that were dropped after they were
handled. Had nobody left, before or behind the subscription, it would have been told the same. -/
theorem received_eq_announcements (workspace : Workspace) (config : WatchConfig)
    (launcher : Launcher) (size : Option (Nat × Nat)) (before later : List (Nat × Operation)) :
    let start := fresh workspace config launcher size
    let w := start.after before
    let v := start.after (Operation.stayed before)
    let n := w.subscribe.1
    (∀ timed ∈ later, timed.2 ≠ .unsubscribe n) →
    w.subscribe.2.received n later =
        workspace.announcements ((start.history before).map (·.2)) (w.subscribe.2.history later) ∧
      v.subscribe.1 = n ∧
        v.subscribe.2.received n (Operation.stayed later) = w.subscribe.2.received n later := by
  intro start w v n stays
  have fresh := fresh_follows workspace config launcher size
  have site (ops : List (Nat × Operation)) : (start.after ops).workspace = workspace :=
    (after_workspace start ops).trans (fresh_workspace workspace config launcher size)
  obtain ⟨number, behind⟩ := subscribe_stayed start before later
  have told := received_behind (fresh.after before) stays
  have remain : ∀ timed ∈ Operation.stayed later, timed.2 ≠ .unsubscribe v.subscribe.1 := by
    intro timed h
    rw [number]
    exact stays timed (List.mem_filter.1 h).1
  have again := received_behind (fresh.after (Operation.stayed before)) remain
  rw [history_stayed, behind, number, site] at again
  rw [site] at told
  exact ⟨told, number, again.trans told.symm⟩

/-- Someone else subscribes first. Then a pass is on its way. -/
def someoneElse : List (Nat × Operation) :=
  [(0, .subscribe), (1, .event (soloError "a.ts" 1)),
    (2, .event (reportOf "app" .warning "b.ts" 2))]

/-- The error is dropped and the other one leaves before the pass is complete. Nobody knows the
project of the next announcement, and the last one waits in the queue for a while. -/
def twoAnnouncements : List (Nat × Operation) :=
  [(3, .clearFile ⟨"a.ts"⟩), (4, .unsubscribe 0), (5, .event (.phase "app" "Found 1 error.")),
    (6, .collect 1), (7, .event (.phase "lib" "Found 1 error.")), (8, .event (soloError "c.ts" 3)),
    (9, .enqueue (.phase "app" "Watching for file changes.")), (10, .drainQueue)]

theorem received_eq_announcements_twice :
    let start := fresh soloWorkspace {} willing none
    let w := start.after someoneElse
    let v := start.after (Operation.stayed someoneElse)
    let told : List PassSummary :=
      [{ projectId := "app", projectName := "app", errors := 0, warnings := 1, completedAt := 5 },
        { projectId := "app", projectName := "app", errors := 1, warnings := 0, completedAt := 10 }]
    w.subscribe.1 = 1 ∧ (∀ timed ∈ twoAnnouncements, timed.2 ≠ .unsubscribe 1) ∧
      w.subscribe.2.received 1 twoAnnouncements = told ∧ v.subscribe.1 = 1 ∧
        v.subscribe.2.received 1 (Operation.stayed twoAnnouncements) = told := by
  intro start w v told
  have number : w.subscribe.1 = 1 := by decide +kernel
  have stays : ∀ timed ∈ twoAnnouncements, timed.2 ≠ .unsubscribe 1 := by decide +kernel
  have announced : soloWorkspace.announcements ((start.history someoneElse).map (·.2))
      (w.subscribe.2.history twoAnnouncements) = told := by decide +kernel
  obtain ⟨received, same, stayed⟩ :=
    received_eq_announcements soloWorkspace {} willing none someoneElse twoAnnouncements
      (by rwa [number])
  rw [number] at received same stayed
  rw [announced] at received
  exact ⟨number, stays, received, same, stayed.trans received⟩

end Watcher

end DiagnosticWatch
