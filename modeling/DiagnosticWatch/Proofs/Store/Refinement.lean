import DiagnosticWatch.Proofs.Store.History

/-!
# Stores implement their histories

`ProjectIndex.Holds` is the invariant that ties pass numbers to positions in a history: the bucket
at a place is of the pass that is open and holds what came since the last completion, or it is older
and holds what came before it, or it is not there. One lemma per operation keeps it. The main
statement, `after_implements_history`, collects what every store owes to its history, to other
projects and to operations that open a pass.
-/

namespace DiagnosticWatch

/-- The bucket at a place, against what was inserted since the last completion and what was inserted
in the complete pass before it. -/
inductive ProjectIndex.Holds (p : ProjectIndex) (place : Location) :
    List Diagnostic → List Diagnostic → Prop
  | fresh {b : Bucket} {previous : List Diagnostic} (stored : p.files.get? place = some b)
      (isOpen : p.passOpen = true) (current : b.pass = p.pass) (filled : b.diagnostics ≠ []) :
      Holds p place b.diagnostics previous
  | stale {b : Bucket} (stored : p.files.get? place = some b)
      (older : b.pass < p.beginPass.pass) (filled : b.diagnostics ≠ []) :
      Holds p place [] b.diagnostics
  | absent (stored : p.files.get? place = none) : Holds p place [] []

namespace ProjectIndex.Holds

variable {p q : ProjectIndex} {place : Location} {current previous : List Diagnostic}

theorem empty (place : Location) : ({} : ProjectIndex).Holds place [] [] :=
  .absent rfl

/-- Only the bucket at the place, the number of the pass and whether it is open count. -/
theorem congr (h : p.Holds place current previous)
    (stored : q.files.get? place = p.files.get? place)
    (pass : q.pass = p.pass) (isOpen : q.passOpen = p.passOpen) :
    q.Holds place current previous := by
  cases h with
  | fresh hb ho hp hd => exact .fresh (stored.trans hb) (isOpen.trans ho) (hp.trans pass.symm) hd
  | stale hb hp hd =>
      refine .stale (stored.trans hb) ?_ hd
      have same : q.beginPass.pass = p.beginPass.pass := by
        simp only [ProjectIndex.beginPass, pass, isOpen]
        split
        · exact pass
        · rfl
      rw [same]
      exact hp
  | absent hb => exact .absent (stored.trans hb)

theorem beginPass (h : p.Holds place current previous) :
    p.beginPass.Holds place current previous := by
  cases h with
  | fresh hb ho hp hd =>
      rw [beginPass_of_open ho]
      exact .fresh hb ho hp hd
  | stale hb hp hd =>
      refine .stale (by rwa [beginPass_files]) ?_ hd
      rwa [beginPass_beginPass]
  | absent hb => exact .absent (by rwa [beginPass_files])

/-- The first diagnostic of a pass replaces an older bucket, later ones are added to it. -/
theorem insert {d : Diagnostic} (h : p.Holds d.file.location current previous) :
    (p.insert d).Holds d.file.location (current ++ [d]) previous := by
  have stored : (p.insert d).files.get? d.file.location = some (p.refilled d) := by
    rw [get?_insert, if_pos rfl]
  have filled : (p.refilled d).diagnostics = current ++ [d] := by
    rw [refilled]
    cases h with
    | fresh hb ho hp _ =>
        have same : p.beginPass.pass = p.pass := by rw [beginPass_of_open ho]
        simp [hb, hp, same]
    | stale hb hp _ => simp [hb, Nat.ne_of_lt hp]
    | absent hb => simp [hb]
  rw [← filled]
  refine .fresh stored (insert_passOpen p d) ?_ ?_
  · rw [insert_pass, refilled_pass]
  · simp [filled]

theorem insert_of_ne {d : Diagnostic} (h : p.Holds place current previous)
    (hne : d.file.location ≠ place) : (p.insert d).Holds place current previous := by
  refine h.beginPass.congr ?_ (insert_pass p d) ?_
  · rw [get?_insert, if_neg hne, beginPass_files]
  · rw [insert_passOpen, beginPass_passOpen]

/-- A completion keeps the bucket of its own pass, which is then the older one. -/
theorem completePass (h : p.Holds place current previous) :
    p.completePass.2.Holds place [] current := by
  cases h with
  | fresh hb ho hp hd =>
      have same : p.beginPass.pass = p.pass := by rw [beginPass_of_open ho]
      refine .stale (p := p.completePass.2) ?_ ?_ hd
      · simp [get?_completePass, hb, hp, same]
      · rw [beginPass_pass_of_closed (completePass_passOpen p), completePass_pass]
        omega
  | stale hb hp _ =>
      refine .absent ?_
      simp [get?_completePass, hb, Nat.ne_of_lt hp]
  | absent hb =>
      refine .absent ?_
      simp [get?_completePass, hb]

theorem remove (p : ProjectIndex) (file : Path) : (p.remove file).Holds file.location [] [] :=
  .absent (by rw [get?_remove, if_pos rfl])

theorem remove_of_ne {file : Path} (h : p.Holds place current previous)
    (hne : file.location ≠ place) : (p.remove file).Holds place current previous := by
  refine h.congr ?_ rfl rfl
  rw [get?_remove, if_neg (Ne.symm hne)]

theorem clear (p : ProjectIndex) (place : Location) : p.clear.Holds place [] [] :=
  .absent rfl

theorem file?_eq {file : Path} (h : p.Holds file.location current previous) :
    p.file? file =
      if current ≠ [] then some current else if previous ≠ [] then some previous else none := by
  cases h with
  | fresh hb _ _ hd => simp [file?, hb, hd]
  | stale hb _ hd => simp [file?, hb, hd]
  | absent hb => simp [file?, hb]

end ProjectIndex.Holds

namespace Store

open History

variable {id : String} {file : Path} {ops : List Operation}

/-- One more operation moves a bucket and its history alike. -/
theorem Operation.holds_onIndex {p : ProjectIndex}
    (h : p.Holds file.location (current id file ops) (previous id file ops)) (op : Operation) :
    (op.onIndex id p).Holds file.location (current id file (ops ++ [op]))
      (previous id file (ops ++ [op])) := by
  have keep (hc : completes id op = false) (hf : forgets file op = false)
      (hi : inserted? id file op = none) :
      current id file (ops ++ [op]) = current id file ops ∧
        previous id file (ops ++ [op]) = previous id file ops := by
    refine ⟨?_, previous_of_neither hc hf⟩
    rw [current_of_neither hc hf, hi, Option.toList_none, List.append_nil]
  cases op with
  | register other =>
      obtain ⟨hcur, hprev⟩ := keep rfl rfl rfl
      rw [hcur, hprev]
      exact h
  | beginPass other =>
      obtain ⟨hcur, hprev⟩ := keep rfl rfl rfl
      rw [hcur, hprev]
      simp only [onIndex]
      split
      · exact h.beginPass
      · exact h
  | insert other d =>
      simp only [onIndex]
      by_cases hid : other = id
      · by_cases hplace : d.file.location = file.location
        · have hi : inserted? id file (.insert other d) = some d := if_pos ⟨hid, hplace⟩
          rw [current_of_neither rfl rfl, previous_of_neither rfl rfl, hi, if_pos hid]
          rw [← hplace] at h ⊢
          exact h.insert
        · have hi : inserted? id file (.insert other d) = none := if_neg fun both => hplace both.2
          obtain ⟨hcur, hprev⟩ := keep rfl rfl hi
          rw [hcur, hprev, if_pos hid]
          exact h.insert_of_ne hplace
      · have hi : inserted? id file (.insert other d) = none := if_neg fun both => hid both.1
        obtain ⟨hcur, hprev⟩ := keep rfl rfl hi
        rw [hcur, hprev, if_neg hid]
        exact h
  | completePass other =>
      simp only [onIndex]
      by_cases hid : other = id
      · have hc : completes id (.completePass other) = true := beq_iff_eq.2 hid
        rw [current_of_completes hc, previous_of_completes hc, if_pos hid]
        exact h.completePass
      · have hc : completes id (.completePass other) = false := beq_false_of_ne hid
        obtain ⟨hcur, hprev⟩ := keep hc rfl rfl
        rw [hcur, hprev, if_neg hid]
        exact h
  | removeFile f =>
      by_cases hplace : f.location = file.location
      · have hf : forgets file (.removeFile f) = true := decide_eq_true hplace
        rw [current_of_forgets hf, previous_of_forgets hf, ← hplace]
        exact .remove p f
      · have hf : forgets file (.removeFile f) = false := decide_eq_false hplace
        obtain ⟨hcur, hprev⟩ := keep rfl hf rfl
        rw [hcur, hprev]
        exact h.remove_of_ne hplace
  | clear =>
      rw [current_of_forgets rfl, previous_of_forgets rfl]
      exact .clear p file.location

/-- A project is known from its first registration on, and its buckets follow its history. -/
theorem get?_after (id : String) (ops : List Operation) :
    match sinceRegistered? id ops with
    | none => (after ops).projects.get? id = none
    | some since => ∃ p, (after ops).projects.get? id = some p ∧
        ∀ file : Path, p.Holds file.location (current id file since) (previous id file since) := by
  induction ops using List.reverseRecOn with
  | nil => rfl
  | append_singleton ops op ih =>
      rw [after_concat, sinceRegistered?_concat, get?_perform]
      cases hs : sinceRegistered? id ops with
      | none =>
          simp only [hs] at ih
          simp only [ih]
          by_cases first : op = .register id
          · simp only [if_pos first]
            exact ⟨{}, rfl, fun file => .empty file.location⟩
          · simp only [if_neg first]
      | some since =>
          simp only [hs] at ih
          obtain ⟨p, hp, holds⟩ := ih
          simp only [hp]
          exact ⟨_, rfl, fun file => op.holds_onIndex (holds file)⟩

theorem file?_after (id : String) (file : Path) (ops : List Operation) :
    (after ops).file? id file = (sinceRegistered? id ops).bind (bucket? id file) := by
  have known := get?_after id ops
  cases hs : sinceRegistered? id ops with
  | none =>
      rw [hs] at known
      rw [file?, known]
      rfl
  | some since =>
      rw [hs] at known
      obtain ⟨p, hp, holds⟩ := known
      rw [file?, hp, Option.bind_some, (holds file).file?_eq, Option.bind_some, bucket?]
      by_cases hc : current id file since = []
      · by_cases hprev : previous id file since = []
        · simp [hc, hprev]
        · simp [hc, hprev, lastRemoval_lt_of_previous hprev]
      · simp [hc]

theorem opened_after (ops : List Operation) :
    (after ops).opened = (after (ops.filter fun op => !op.isBeginPass)).opened := by
  induction ops using List.reverseRecOn with
  | nil => rfl
  | append_singleton ops op ih =>
      cases hop : op.isBeginPass with
      | true =>
          obtain ⟨id, rfl⟩ : ∃ id, op = .beginPass id := by
            cases op <;> simp_all [Operation.isBeginPass]
          rw [after_concat, opened_beginPass, ih, List.filter_append]
          simp [Operation.isBeginPass]
      | false =>
          have kept : (ops ++ [op]).filter (fun op => !op.isBeginPass) =
              ops.filter (fun op => !op.isBeginPass) ++ [op] := by
            simp [hop]
          rw [kept, after_concat, after_concat, ← opened_perform_opened, ih, opened_perform_opened]

/-- Stores that differ in opened passes only cannot be told apart. -/
theorem runAll_of_opened_eq {s t : Store} (h : s.opened = t.opened) (ops : List Operation) :
    (runAll perform ops s).1 = (runAll perform ops t).1 ∧
      (runAll perform ops s).2.view = (runAll perform ops t).2.view := by
  have simulate (s t : Store) (op : Operation) (h : s.opened = t.opened) :
      (s.perform op).1 = (t.perform op).1 ∧
        (s.perform op).2.opened = (t.perform op).2.opened := by
    constructor
    · rw [← answer_opened s, h, answer_opened]
    · rw [← opened_perform_opened s, h, opened_perform_opened]
  have always (s : Store) : Throughout (fun _ _ => True) perform ops s :=
    throughout_of_forall (fun _ _ => trivial) ops s
  obtain ⟨answers, final⟩ := runAll_simulates
    (fun s t op h _ _ => simulate s t op h) ops h (always s) (always t)
  exact ⟨answers, by rw [← view_opened, final, view_opened]⟩

/-- The files whose buckets a completion removes, in path order and each of them once. -/
theorem completePass_after (ops : List Operation) (known : (after ops).contains id = true) :
    ∃ pruned, ((after ops).perform (.completePass id)).1 = .pruned (some pruned) ∧
      (pruned.Pairwise fun f g => compare f.location g.location = .lt) ∧
      ∀ file : Path, (∃ g ∈ pruned, g.location = file.location) ↔
        ((after ops).file? id file).isSome = true ∧
          ((after ops).perform (.completePass id)).2.file? id file = none := by
  obtain ⟨p, hp⟩ := contains_iff_get?.1 known
  have placed := placed_after ops id p hp
  have answer : ((after ops).perform (.completePass id)).1 = .pruned (some p.completePass.1) := by
    simp only [perform, completePass, hp, Option.map_some]
  refine ⟨p.completePass.1, answer, placed.pruned_ascending, ?_⟩
  intro file
  have behind : ((after ops).perform (.completePass id)).2.file? id file =
      p.completePass.2.file? file := by
    rw [file?, get?_perform_of_some hp]
    simp [Operation.onIndex]
  rw [behind, file?, hp, Option.bind_some]
  exact placed.mem_pruned_iff file

/-- A store holds for a file what its history says: the inserts since the last completion, else
those of the pass before it, and nothing from before the file was last forgotten. Operations that
open a pass can be left out of the history. A completion prunes exactly the files that it takes
away. An operation on one project leaves the files of the others alone. -/
theorem after_implements_history (ops more : List Operation) (id : String) :
    (∀ file, (after ops).file? id file = (sinceRegistered? id ops).bind (bucket? id file)) ∧
    ((runAll perform more (after ops)).1 =
        (runAll perform more (after (ops.filter fun op => !op.isBeginPass))).1 ∧
      (runAll perform more (after ops)).2.view =
        (runAll perform more (after (ops.filter fun op => !op.isBeginPass))).2.view) ∧
    ((after ops).contains id = true →
      ∃ pruned, ((after ops).perform (.completePass id)).1 = .pruned (some pruned) ∧
        (pruned.Pairwise fun f g => compare f.location g.location = .lt) ∧
        ∀ file : Path, (∃ g ∈ pruned, g.location = file.location) ↔
          ((after ops).file? id file).isSome = true ∧
            ((after ops).perform (.completePass id)).2.file? id file = none) ∧
    ∀ op other, op.target? = some other → other ≠ id →
      ∀ file, ((after ops).perform op).2.file? id file = (after ops).file? id file := by
  refine ⟨fun file => file?_after id file ops, ?_, completePass_after ops, ?_⟩
  · exact runAll_of_opened_eq (opened_after ops) more
  · intro op other htarget hne file
    exact file?_perform_of_ne htarget hne file

/-- One complete pass with two files, and an open one that has repeated one of them so far. -/
def secondPass : List Operation :=
  let report (file : String) (code : UInt32) : Operation :=
    .insert "app"
      { file := ⟨file⟩, line := 1, column := 1, category := .error, code, message := "" }
  [.register "app", .register "lib", .beginPass "app", report "/w/b.ts" 1, report "/w/a.ts" 2,
    .completePass "app", .beginPass "app", report "/w/b.ts" 3]

theorem after_implements_history_secondPass :
    ((after secondPass).contains "app" = true ∧
      ∃ pruned, ((after secondPass).perform (.completePass "app")).1 = .pruned (some pruned) ∧
        (pruned.Pairwise fun f g => compare f.location g.location = .lt) ∧
        ∀ file : Path, (∃ g ∈ pruned, g.location = file.location) ↔
          ((after secondPass).file? "app" file).isSome = true ∧
            ((after secondPass).perform (.completePass "app")).2.file? "app" file = none) ∧
    (Operation.target? (.completePass "lib") = some "lib" ∧ "lib" ≠ "app" ∧
      ∀ file, ((after secondPass).perform (.completePass "lib")).2.file? "app" file =
        (after secondPass).file? "app" file) := by
  have known : (after secondPass).contains "app" = true := by decide +kernel
  obtain ⟨-, -, prunes, isolated⟩ := after_implements_history secondPass [] "app"
  exact ⟨⟨known, prunes known⟩, rfl, by decide, isolated _ "lib" rfl (by decide)⟩

end Store

end DiagnosticWatch
