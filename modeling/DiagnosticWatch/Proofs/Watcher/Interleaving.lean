import DiagnosticWatch.Proofs.Watcher.Held
import DiagnosticWatch.Proofs.Watcher.Parts
import DiagnosticWatch.Proofs.Watcher.WriteThrough

/-!
# Sessions do not interfere

Sessions report one after the other, in an order that nobody controls. All of them share the staged
bucket and the cache, so events of one project flush and push out what another one has reported. Yet
each project has its own share of the watcher, and an event is taken by the share of its project
alone (`share_handle`). So a share is made of the events of its project in their order
(`share_handling`), and as long as nothing is pushed out, the same holds of what is held for a file
(`held?_handling`). Interleavings of the same streams therefore answer alike
(`interleavings_agree`). What may still tell them apart is the journal, the times at which passes
completed and the cache itself.
-/

namespace DiagnosticWatch

/-- The same summary with the time taken out. -/
def PassSummary.untimed (s : PassSummary) : PassSummary :=
  { s with completedAt := 0 }

/-- What a subscriber has been told about a project, whenever that was. -/
def Subscriber.heard (s : Subscriber) (id : String) : List PassSummary :=
  (s.pending.filter fun summary => summary.projectId = id).map (·.untimed)

/-- Everything in a watcher that belongs to one project, what its subscribers have heard about it
included. -/
structure Share where
  project? : Option Project
  index? : Option ProjectIndex
  session? : Option WatchSession
  state? : Option ProjectState
  inboxes : Table Nat (List PassSummary)

namespace Share

def summary (s : Share) (id : String) (i : ProjectIndex) : PassSummary :=
  let tally := Tally.of i.diagnostics
  { projectId := id
    projectName := (s.project?.map (·.name)).getD id
    errors := tally.errors
    warnings := tally.warnings
    completedAt := 0 }

def take (s : Share) (e : SessionEvent) : Share :=
  match s.index? with
  | none => s
  | some i =>
    match e with
    | .diagnostic _ d =>
      match s.project? with
      | none => s
      | some p => { s with index? := some (i.insert (d.within p.root)) }
    | .phase id message =>
      match PhaseSignal.classify message with
      | .passStarted => { s with index? := some i.beginPass }
      | .passCompleted =>
        { s with
          index? := some i.completePass.2
          inboxes := s.inboxes.map fun _ heard => heard ++ [s.summary id i.completePass.2] }
      | .other => s
    | .exited _ =>
      match s.session? with
      | none => s
      | some _ => { s with session? := none, state? := some .error }

theorem isSome_take (s : Share) (e : SessionEvent) :
    (s.take e).index?.isSome = s.index?.isSome := by
  cases hi : s.index? with
  | none => simp [take, hi]
  | some i =>
      cases e with
      | diagnostic id d => cases hp : s.project? <;> simp [take, hi, hp]
      | phase id message => cases signal : PhaseSignal.classify message <;> simp [take, hi, signal]
      | exited id => cases hs : s.session? <;> simp [take, hi, hs]

/-- What an event of the project makes of the bucket that is known for a file. -/
def revise (s : Share) (file : Path) (known : Option (List Diagnostic)) (e : SessionEvent) :
    Option (List Diagnostic) :=
  match s.index? with
  | none => known
  | some i => i.revise s.project? file known e

/-- What events of the project make, one after the other, of the bucket that is known for a file. -/
def reviseAll (file : Path) : Share → Option (List Diagnostic) → List SessionEvent →
    Option (List Diagnostic)
  | _, known, [] => known
  | s, known, e :: es => reviseAll file (s.take e) (s.revise file known e) es

end Share

namespace Watcher

def share (w : Watcher) (id : String) : Share :=
  { project? := w.workspace.project? id
    index? := w.store.projects.get? id
    session? := w.sessions.get? id
    state? := w.states.get? id
    inboxes := (w.subscribers.filter fun _ s => s.listening).map fun _ s => s.heard id }

/-- The events of one project among all events. -/
def streamOf (id : String) (es : List (Nat × SessionEvent)) : List SessionEvent :=
  (es.map (·.2)).filter fun e => e.project = id

variable {w v : Watcher} {now : Nat} {id other : String} {file path : Path}

theorem share_withData (w : Watcher) (store : Store) (cache : Cache) (staged : Option Staged)
    (id : String) :
    (w.withData store cache staged).share id =
      { w.share id with index? := store.projects.get? id } := rfl

theorem share_onDiagnostic (hi : w.store.contains other = true) (now : Nat) (d : Diagnostic)
    (id : String) :
    (w.onDiagnostic now other d).share id =
      if other = id then (w.share id).take (.diagnostic other d) else w.share id := by
  obtain ⟨i, hi⟩ := Store.contains_iff_get?.1 hi
  cases hp : w.workspace.project? other with
  | none =>
      rw [onDiagnostic_of_unknown hp]
      split
      · rename_i own
        subst own
        simp only [Share.take, share, hi, hp]
      · rfl
  | some p =>
      rw [onDiagnostic_of_known hp, stage_eq_withData]
      refine (share_withData w (w.store.insert other (d.within p.root)).2 _ _ id).trans ?_
      rw [Store.insert, Table.get?_modify]
      by_cases own : other = id
      · subst own
        simp only [Share.take, share, hi, hp, if_true, Option.map_some]
      · rw [if_neg own, if_neg (Ne.symm own)]
        rfl

theorem share_beginPass {i : ProjectIndex} (hi : w.store.projects.get? other = some i)
    (id : String) :
    ({ w with store := (w.store.beginPass other).2 } : Watcher).share id =
      if other = id then { w.share id with index? := some i.beginPass } else w.share id := by
  refine (share_withData w (w.store.beginPass other).2 w.cache w.staged id).trans ?_
  rw [Store.beginPass, Table.get?_modify]
  by_cases own : other = id
  · subst own
    simp only [if_true, hi, Option.map_some]
  · rw [if_neg own, if_neg (Ne.symm own)]
    rfl

/-- A summary is heard by those who listen, and concerns its own project only. -/
theorem inboxes_publish (w : Watcher) (summary : PassSummary) (id : String) :
    ((w.publish summary).share id).inboxes =
      if summary.projectId = id then
        (w.share id).inboxes.map fun _ heard => heard ++ [summary.untimed]
      else (w.share id).inboxes := by
  split
  all_goals
    rename_i about
    refine Table.ext_get? fun n => ?_
    simp only [share, publish, Subscriber.tell, Table.get?_map, Table.get?_filter]
    cases w.subscribers.get? n with
    | none => rfl
    | some s => cases hs : s.listening <;> simp [Option.filter_some, hs, Subscriber.heard, about]

theorem share_completePass {i : ProjectIndex} (hi : w.store.projects.get? other = some i)
    (now : Nat) (id : String) :
    (w.completePass now other).share id =
      if other = id then
        { w.share id with
          index? := some i.completePass.2
          inboxes := (w.share id).inboxes.map fun _ heard =>
            heard ++ [(w.share id).summary id i.completePass.2] }
      else w.share id := by
  -- `v` is the watcher in front of the publication. Only its store is another one, as far as shares
  -- go.
  rw [completePass_of_known hi]
  simp only
  generalize hv : { ({ w.flush now with store := (w.store.completePass other).2 }).uncache other
    i.completePass.1 with lastCompilation := some now } = v
  have apart : v.share id = { w.share id with
      index? := (w.store.completePass other).2.projects.get? id } := by
    rw [← hv, flush_eq_withData]
    rfl
  have told : (v.publish (v.summary now other)).share id =
      { v.share id with inboxes := ((v.publish (v.summary now other)).share id).inboxes } := rfl
  have about : (v.summary now other).projectId = other := rfl
  rw [told, inboxes_publish, apart, about, Store.completePass, Table.get?_modify]
  by_cases own : other = id
  · subst own
    have totals : v.store.projectTotals? other = some (.of i.completePass.2.diagnostics) := by
      have stored : v.store = (w.store.completePass other).2 := by rw [← hv]; rfl
      rw [stored, Store.projectTotals?, Store.completePass, Table.get?_modify, if_pos rfl, hi]
      rfl
    have names : v.workspace = w.workspace := by
      rw [← hv]
      exact congrArg Prod.fst (flush_setup w now)
    have same : (v.summary now other).untimed =
        (w.share other).summary other i.completePass.2 := by
      simp only [summary, PassSummary.untimed, totals, names, Share.summary, share,
        Option.getD_some]
    simp only [if_true, hi, Option.map_some, same]
  · rw [if_neg own, if_neg own, if_neg (Ne.symm own)]
    rfl

theorem share_onPhase (known : w.store.contains other = true) (now : Nat) (message : String)
    (id : String) :
    (w.onPhase now other message).share id =
      if other = id then (w.share id).take (.phase other message) else w.share id := by
  obtain ⟨i, hi⟩ := Store.contains_iff_get?.1 known
  have own (h : other = id) : (w.share id).index? = some i := h ▸ hi
  rw [onPhase]
  cases signal : PhaseSignal.classify message with
  | passStarted =>
      simp only [share_beginPass hi]
      split
      · rename_i h
        simp only [Share.take, own h, signal]
      · rfl
  | passCompleted =>
      simp only [share_completePass hi]
      split
      · rename_i h
        subst h
        simp only [Share.take, own rfl, signal]
      · rfl
  | other =>
      simp only
      split
      · rename_i h
        simp only [Share.take, own h, signal]
      · rfl

theorem share_onExit (known : w.store.contains other = true) (now : Nat) (id : String) :
    (w.onExit now other).share id =
      if other = id then (w.share id).take (.exited other) else w.share id := by
  obtain ⟨i, hi⟩ := Store.contains_iff_get?.1 known
  rw [onExit]
  cases hs : w.sessions.get? other with
  | none =>
      by_cases own : other = id
      · subst own
        simp only [Share.take, share, hi, hs, if_true]
      · rw [if_neg own]
  | some s =>
      simp only
      rw [flush_eq_withData]
      by_cases own : other = id
      · subst own
        simp only [Share.take, share, hi, hs, if_true]
        simp [setState, withData, closeSession, note, Table.get?_insert, Table.get?_erase, hi]
      · rw [if_neg own]
        simp [share, setState, withData, closeSession, note, Table.get?_insert, Table.get?_erase,
          own, Ne.symm own]

/-- An event is taken by the share of its project, and leaves the other shares alone. -/
theorem share_handle (w : Watcher) (now : Nat) (e : SessionEvent) (id : String) :
    (w.handle now e).share id =
      if e.project = id then (w.share id).take e else w.share id := by
  refine handle_cases ?unknown ?diagnostic ?phase ?exited e
  case unknown =>
    intro e unknown
    by_cases own : e.project = id
    · have none : (w.share id).index? = none := own ▸ unknown
      rw [if_pos own, Share.take, none]
    · rw [if_neg own]
  case diagnostic => exact fun other d known => share_onDiagnostic known now d id
  case phase => exact fun other message known => share_onPhase known now message id
  case exited => exact fun other known => share_onExit known now id

theorem revise_of_own {e : SessionEvent} (own : e.project = id) (file : Path)
    (known : Option (List Diagnostic)) :
    w.revise e id file known = (w.share id).revise file known e := by
  cases hi : w.store.projects.get? id <;> simp only [revise, Share.revise, share, hi, if_pos own]

theorem streamOf_cons (id : String) (timed : Nat × SessionEvent)
    (es : List (Nat × SessionEvent)) :
    streamOf id (timed :: es) =
      if timed.2.project = id then timed.2 :: streamOf id es else streamOf id es := by
  by_cases own : timed.2.project = id <;> simp [streamOf, own]

theorem handling_workspace (w : Watcher) (es : List (Nat × SessionEvent)) :
    (w.handling es).workspace = w.workspace := by
  induction es generalizing w with
  | nil => rfl
  | cons timed es ih =>
      rw [handling_cons, ih]
      exact congrArg Prod.fst (handle_setup w timed.1 timed.2)

/-- The share of a project is made of the events of that project, in their order. -/
theorem share_handling (w : Watcher) (es : List (Nat × SessionEvent)) (id : String) :
    (w.handling es).share id = (streamOf id es).foldl Share.take (w.share id) := by
  induction es generalizing w with
  | nil => rfl
  | cons timed es ih =>
      rw [handling_cons, ih, share_handle, streamOf_cons]
      split <;> rfl

/-- As long as nothing is pushed out, so is what is held for a file in that project. -/
theorem held?_handling {es : List (Nat × SessionEvent)}
    (calm : (w.handling es).cache.evictions = w.cache.evictions) (id : String) (file : Path) :
    (w.handling es).held? id file =
      (w.share id).reviseAll file (w.held? id file) (streamOf id es) := by
  induction es generalizing w with
  | nil => rfl
  | cons timed es ih =>
      obtain ⟨first, rest⟩ := calm_cons calm
      rw [handling_cons, ih rest, held?_handle first, share_handle, streamOf_cons]
      by_cases own : timed.2.project = id
      · rw [if_pos own, if_pos own, revise_of_own own]
        rfl
      · rw [if_neg own, if_neg own, revise_of_ne timed.2 own]

/-- Whoever has left and has not been noticed to be gone. -/
def leavers (w : Watcher) : Table Nat Subscriber :=
  w.subscribers.filter fun _ s => !s.listening

/-- Whether an event completes a pass that is published. -/
def publishes (w : Watcher) : SessionEvent → Bool
  | .phase id message =>
    w.store.contains id && PhaseSignal.classify message = .passCompleted
  | _ => false

theorem leavers_publish (w : Watcher) (summary : PassSummary) :
    (w.publish summary).leavers = .empty := by
  refine Table.ext_get? fun n => ?_
  simp only [leavers, publish, Subscriber.tell, Table.get?_map, Table.get?_filter]
  cases w.subscribers.get? n with
  | none => rfl
  | some s => cases hs : s.listening <;> simp [Option.filter_some, hs]

theorem leavers_congr (same : v.subscribers = w.subscribers) : v.leavers = w.leavers := by
  rw [leavers, leavers, same]

theorem leavers_handle (w : Watcher) (now : Nat) (e : SessionEvent) :
    (w.handle now e).leavers = if w.publishes e then .empty else w.leavers := by
  refine handle_cases ?unknown ?diagnostic ?phase ?exited e
  case unknown =>
    intro e unknown
    have quiet : w.publishes e = false := by
      cases e with
      | phase id message =>
          have unknown : w.store.projects.get? id = none := unknown
          rw [publishes, Store.contains, Table.contains, unknown]
          rfl
      | _ => rfl
    rw [quiet, if_neg Bool.false_ne_true]
  case diagnostic =>
    exact fun id d _ => leavers_congr (onDiagnostic_onlyData w now id d).subscribers
  case phase =>
    intro id message known
    obtain ⟨i, hi⟩ := Store.contains_iff_get?.1 known
    simp only [onPhase, publishes, known, Bool.true_and]
    cases PhaseSignal.classify message with
    | passCompleted =>
        rw [completePass_of_known hi]
        exact leavers_publish _ _
    | _ => rfl
  case exited => exact fun id _ => leavers_congr (onExit_subscribers w now id)

theorem contains_handle (w : Watcher) (now : Nat) (e : SessionEvent) (id : String) :
    (w.handle now e).store.contains id = w.store.contains id := by
  have index := congrArg (fun s : Share => s.index?.isSome) (share_handle w now e id)
  refine index.trans ?_
  split
  · exact Share.isSome_take _ e
  · rfl

/-- The first pass that is published by anyone removes everyone who has left. -/
theorem leavers_handling (w : Watcher) (es : List (Nat × SessionEvent)) :
    (w.handling es).leavers = if es.any (w.publishes ·.2) then .empty else w.leavers := by
  induction es generalizing w with
  | nil => rfl
  | cons timed es ih =>
      have alike (e : SessionEvent) : (w.handle timed.1 timed.2).publishes e = w.publishes e := by
        cases e with
        | phase id message => simp only [publishes, contains_handle]
        | _ => rfl
      rw [handling_cons, ih, leavers_handle, List.any_cons]
      simp only [alike]
      cases w.publishes timed.2 with
      | false => simp only [Bool.false_or, Bool.false_eq_true, if_false]
      | true => simp only [Bool.true_or, if_true, ite_self]

theorem any_publishes_congr {es fs : List (Nat × SessionEvent)}
    (same : ∀ id, streamOf id es = streamOf id fs) :
    es.any (w.publishes ·.2) = fs.any (w.publishes ·.2) := by
  have part {es fs : List (Nat × SessionEvent)} (same : ∀ id, streamOf id es = streamOf id fs)
      (h : es.any (w.publishes ·.2) = true) : fs.any (w.publishes ·.2) = true := by
    obtain ⟨timed, hmem, published⟩ := List.any_eq_true.1 h
    have taken : timed.2 ∈ streamOf timed.2.project es :=
      List.mem_filter.2 ⟨List.mem_map_of_mem hmem, by simp⟩
    rw [same] at taken
    obtain ⟨other, hother, event⟩ := List.mem_map.1 (List.mem_of_mem_filter taken)
    exact List.any_eq_true.2 ⟨other, hother, by rwa [event]⟩
  exact Bool.eq_iff_iff.2 ⟨part same, part fun id => (same id).symm⟩

theorem heard_congr (listening : (v.share id).inboxes = (w.share id).inboxes)
    (gone : v.leavers = w.leavers) :
    (v.subscribers.map fun _ s => s.heard id) = w.subscribers.map fun _ s => s.heard id := by
  refine Table.ext_get? fun n => ?_
  have listening := congrArg (·.get? n) listening
  have gone := congrArg (·.get? n) gone
  simp only [share, leavers, Table.get?_map, Table.get?_filter] at listening gone ⊢
  cases hv : v.subscribers.get? n with
  | none =>
      cases hw : w.subscribers.get? n with
      | none => rfl
      | some t => cases ht : t.listening <;> simp [hv, hw, ht, Option.filter_some] at listening gone
  | some s =>
      cases hw : w.subscribers.get? n with
      | none => cases hs : s.listening <;> simp [hv, hw, hs, Option.filter_some] at listening gone
      | some t =>
          cases hs : s.listening <;> cases ht : t.listening <;>
            simp_all [Option.filter_some]

/-- Two interleavings of the same streams, each event at whatever time, lead to the same
diagnostics, states and sessions. So all queries but those for single files answer alike, and every
subscriber hears the same about each project, up to the times. The queries for files do so if
neither interleaving pushes an entry out of the cache, the flush in front of the query included, and
the query finds no entry that has expired. -/
theorem interleavings_agree (w : Watcher) (es fs : List (Nat × SessionEvent))
    (same : ∀ id, streamOf id es = streamOf id fs) :
    let v := w.handling es
    let u := w.handling fs
    (v.store = u.store ∧ v.states = u.states ∧ v.sessions = u.sessions) ∧
    ((∀ now, v.allDiagnostics now = u.allDiagnostics now) ∧
      (∀ now name, v.packageDiagnostics? now name = u.packageDiagnostics? now name) ∧
      v.diagnosticCount = u.diagnosticCount ∧ v.hasErrors = u.hasErrors) ∧
    (∀ id, (v.subscribers.map fun _ s => s.heard id) = u.subscribers.map fun _ s => s.heard id) ∧
    ∀ now path,
      (v.flush now).cache.evictions = w.cache.evictions → v.Unexpired (now, .file path) →
      (u.flush now).cache.evictions = w.cache.evictions → u.Unexpired (now, .file path) →
      (v.fileDiagnostics now path).1 = (u.fileDiagnostics now path).1 ∧
        (v.fileHasErrors now path).1 = (u.fileHasErrors now path).1 := by
  intro v u
  have shares (id : String) : v.share id = u.share id := by
    rw [share_handling, share_handling, same]
  have workspace : v.workspace = u.workspace := by
    rw [handling_workspace, handling_workspace]
  have store : v.store = u.store :=
    congrArg Store.mk (Table.ext_get? fun id => congrArg Share.index? (shares id))
  have states : v.states = u.states := Table.ext_get? fun id => congrArg Share.state? (shares id)
  have sessions : v.sessions = u.sessions :=
    Table.ext_get? fun id => congrArg Share.session? (shares id)
  refine ⟨⟨store, states, sessions⟩, ⟨?_, ?_, ?_, ?_⟩, ?_, ?_⟩
  · intro now
    rw [allDiagnostics, allDiagnostics, store]
  · intro now name
    rw [packageDiagnostics?, packageDiagnostics?, store, workspace]
  · rw [diagnosticCount, diagnosticCount, store]
  · rw [hasErrors, hasErrors, store]
  · intro id
    have gone : v.leavers = u.leavers := by
      rw [leavers_handling, leavers_handling, any_publishes_congr same]
    exact heard_congr (congrArg Share.inboxes (shares id)) gone
  · intro now path calm living calm' living'
    have place : v.placeOf path = u.placeOf path := by rw [placeOf, placeOf, workspace]
    have still {x : Watcher} (least : w.cache.evictions ≤ x.cache.evictions)
        (calm : (x.flush now).cache.evictions = w.cache.evictions) :
        x.cache.evictions = w.cache.evictions := by
      have flushed := evictions_flush x now
      omega
    have first := still (evictions_handling w es) calm
    have second := still (evictions_handling w fs) calm'
    have found : v.found now path = u.found now path := by
      rw [found_eq_held (calm.trans first.symm) (living path rfl),
        found_eq_held (calm'.trans second.symm) (living' path rfl), store, place]
      apply List.filterMap_congr
      intro id _
      rw [held?_handling first, held?_handling second, same]
    rw [fileDiagnostics_fst, fileDiagnostics_fst, fileHasErrors_fst, fileHasErrors_fst,
      found, place]
    exact ⟨rfl, rfl⟩

/-- Two sessions have been opened. Of two who have subscribed the first one has left. -/
def pairWatched : Watcher :=
  (pairWorkspace.projects.foldl openSession
    (fresh pairWorkspace {} willing (some (2, 100)))).subscribe.2.subscribe.2.unsubscribe 0

/-- Both projects report a file that they share. Then one completes its pass and the session of the
other one ends. -/
def oneOrder : List (Nat × SessionEvent) :=
  [(1, reportOf "app" .error "../shared.ts" 1), (2, reportOf "lib" .warning "../shared.ts" 2),
    (3, .phase "app" "Found 1 error."), (4, .exited "lib")]

/-- The same streams the other way round. -/
def otherOrder : List (Nat × SessionEvent) :=
  [(5, reportOf "lib" .warning "../shared.ts" 2), (6, .exited "lib"),
    (7, reportOf "app" .error "../shared.ts" 1), (8, .phase "app" "Found 1 error.")]

theorem interleavings_agree_pairWatched :
    let v := pairWatched.handling oneOrder
    let u := pairWatched.handling otherOrder
    ((∀ id, streamOf id oneOrder = streamOf id otherOrder) ∧
      (v.flush 9).cache.evictions = pairWatched.cache.evictions ∧
      v.Unexpired (9, .file ⟨"shared.ts"⟩) ∧
      (u.flush 9).cache.evictions = pairWatched.cache.evictions ∧
      u.Unexpired (9, .file ⟨"shared.ts"⟩)) ∧
    (v.cache ≠ u.cache ∧ (v.sessions.get? "lib").isNone ∧
      (v.subscribers.map fun _ s => s.heard "app").values.map (·.length) = [1]) ∧
    (v.store = u.store ∧ v.states = u.states ∧ v.sessions = u.sessions) ∧
    (∀ id, (v.subscribers.map fun _ s => s.heard id) = u.subscribers.map fun _ s => s.heard id) ∧
    (v.fileDiagnostics 9 ⟨"shared.ts"⟩).1 = (u.fileDiagnostics 9 ⟨"shared.ts"⟩).1 ∧
    (v.fileHasErrors 9 ⟨"shared.ts"⟩).1 = (u.fileHasErrors 9 ⟨"shared.ts"⟩).1 := by
  dsimp only
  have same (id : String) : streamOf id oneOrder = streamOf id otherOrder := by
    by_cases app : "app" = id
    · subst app
      decide +kernel
    · by_cases lib : "lib" = id
      · subst lib
        decide +kernel
      · simp [streamOf, oneOrder, otherOrder, reportOf, SessionEvent.project, app, lib]
  have calm : ((pairWatched.handling oneOrder).flush 9).cache.evictions =
      pairWatched.cache.evictions := by decide +kernel
  have living : (pairWatched.handling oneOrder).Unexpired (9, .file ⟨"shared.ts"⟩) := by
    decide +kernel
  have calm' : ((pairWatched.handling otherOrder).flush 9).cache.evictions =
      pairWatched.cache.evictions := by decide +kernel
  have living' : (pairWatched.handling otherOrder).Unexpired (9, .file ⟨"shared.ts"⟩) := by
    decide +kernel
  obtain ⟨apart, -, heard, files⟩ := interleavings_agree pairWatched oneOrder otherOrder same
  exact ⟨⟨same, calm, living, calm', living'⟩, by decide +kernel, apart, heard,
    files 9 ⟨"shared.ts"⟩ calm living calm' living'⟩

end Watcher

end DiagnosticWatch
