import DiagnosticWatch.Workspace.Pattern
import DiagnosticWatch.Proofs.FileTree.Lookup

/-!
# Walks along member patterns

Where a pattern leads depends on the shape of a tree only. A pattern whose last component is a name
leads to entries of that name.
-/

namespace DiagnosticWatch.MemberPattern

open FileTree (SameShape)
open DiagnosticWatch.Path (PlainName)

variable {s t : FileTree} {p m : Path} {name : String} {c : MemberPattern} {cs : List MemberPattern}

theorem literal?_eq_some_iff : literal? c = some name ↔ c = name.toList.map .char := by
  have read (c : MemberPattern) (cs : List Char) :
      c.mapM charOf? = some cs ↔ c = cs.map .char := by
    induction c generalizing cs with
    | nil => cases cs <;> simp
    | cons token c ih =>
        cases cs with
        | nil => cases token <;> simp [List.mapM_cons, charOf?, Option.bind_eq_some_iff]
        | cons d cs =>
            cases token <;> simp [List.mapM_cons, charOf?, Option.bind_eq_some_iff, ih, and_comm]
  rw [literal?, ← read, Option.map_eq_some_iff]
  constructor
  · rintro ⟨cs, hcs, rfl⟩
    rwa [String.toList_ofList]
  · intro h
    exact ⟨_, h, String.ofList_toList⟩

theorem isMatch_chars (cs text : List Char) :
    isMatch (cs.map PatternToken.char) text = true ↔ text = cs := by
  induction cs generalizing text with
  | nil => simp [isMatch]
  | cons c cs ih =>
      cases text with
      | nil => simp [isMatch]
      | cons d text => simp [isMatch, ih]

/-- The entries `.` and `..` are matched by their texts. -/
theorem mem_specialEntries {e : Path} (h : e ∈ specialEntries c) :
    c.head? = some (.char '.') ∧ (e = ⟨"."⟩ ∨ e = ⟨".."⟩) ∧ isMatch c e.text.toList = true := by
  rw [specialEntries] at h
  obtain ⟨dot, h⟩ := List.mem_ite_nil_right.1 h
  obtain ⟨special, matched⟩ := List.mem_filter.1 h
  refine ⟨dot, ?_, matched⟩
  simpa [or_comm] using special

theorem walk_eq_of_sameShape (h : SameShape s t) : ∀ cs p, walk s cs p = walk t cs p
  | [], _ => rfl
  | [c], p => by
      rw [walk.eq_def, walk.eq_def]
      simp only [h.isDirectory_eq, h.exists?_eq, h.entries_eq, h.entriesBelow_eq,
        walk_eq_of_sameShape h []]
  | c :: d :: ds, p => by
      rw [walk.eq_def, walk.eq_def]
      simp only [h.isDirectory_eq, h.exists?_eq, h.entries_eq, h.entriesBelow_eq,
        walk_eq_of_sameShape h (d :: ds), walk_eq_of_sameShape h ds]

theorem expand_eq_of_sameShape (h : SameShape s t) : expand s = expand t := by
  funext pattern
  simp only [expand, walk_eq_of_sameShape h]

/-- How the first component of a walk can lead on. -/
theorem mem_walk_cons (h : m ∈ walk t (c :: cs) p) :
    (∃ name, literal? c = some name ∧ m ∈ walk t cs (p.join ⟨name⟩)) ∨
      (isRecursive c = true ∧ ∃ e ∈ t.entriesBelow p,
        (∀ d ∈ cs.head?, matchesName d e = true) ∧ m ∈ walk t cs.tail e) ∨
      (∃ e ∈ specialEntries c, m ∈ walk t cs (p.join e)) ∨
      ∃ e ∈ t.entries p, matchesName c e = true ∧ m ∈ walk t cs e := by
  rw [walk.eq_def] at h
  simp only at h
  cases literal : literal? c with
  | some name =>
      rw [literal] at h
      exact .inl ⟨name, rfl, (List.mem_ite_nil_right.1 h).2⟩
  | none =>
      rw [literal] at h
      have h := (List.mem_ite_nil_left.1 h).2
      split at h
      · rename_i recursive
        refine .inr (.inl ⟨recursive, ?_⟩)
        cases cs with
        | nil =>
            obtain ⟨below, -⟩ := List.mem_filter.1 h
            exact ⟨m, below, by simp, by simp [walk]⟩
        | cons d ds =>
            obtain ⟨e, below, h⟩ := List.mem_flatMap.1 h
            obtain ⟨named, h⟩ := List.mem_ite_nil_right.1 h
            exact ⟨e, below, by simpa using named, h⟩
      · obtain h | h := List.mem_append.1 h
        · exact .inr (.inr (.inl (List.mem_flatMap.1 h)))
        · obtain ⟨e, inside, h⟩ := List.mem_flatMap.1 h
          obtain ⟨named, h⟩ := List.mem_ite_nil_right.1 h
          exact .inr (.inr (.inr ⟨e, inside, named, h⟩))

theorem getLast?_collapse (cs : List MemberPattern) : (collapse cs).getLast? = cs.getLast? := by
  induction cs with
  | nil => rfl
  | cons c cs ih =>
      rw [collapse, List.getLast?_cons, ← ih]
      cases collapse cs with
      | nil => rfl
      | cons d ds =>
          simp only
          split <;> simp [List.getLast?_cons]

theorem fileName?_of_matchesName (h : matchesName (name.toList.map .char) p = true) :
    p.fileName? = some name := by
  obtain ⟨found, hfound, same⟩ := (Option.any_eq_true _ _).1 h
  rw [hfound, String.toList_inj.1 ((isMatch_chars _ _).1 same)]

/-- A name is no special entry. -/
theorem not_mem_specialEntries (plain : PlainName name) {e : Path} :
    e ∉ specialEntries (name.toList.map .char) := by
  intro h
  obtain ⟨-, special, same⟩ := mem_specialEntries h
  obtain rfl : e = ⟨name⟩ := congrArg Path.mk (String.toList_inj.1 ((isMatch_chars _ _).1 same))
  have component := plain.component
  obtain h | h := special <;> simp [Path.mk.inj h, Path.component?] at component

theorem mem_walk_name (plain : PlainName name) (h : m ∈ walk t [name.toList.map .char] p) :
    m = p.join ⟨name⟩ ∨ m ∈ t.entries p ∧ m.fileName? = some name := by
  obtain ⟨n, hn, h⟩ | ⟨recursive, -⟩ | ⟨e, he, -⟩ | ⟨e, inside, named, h⟩ := mem_walk_cons h
  · have same : n = name := Option.some.inj (hn.symm.trans (literal?_eq_some_iff.2 rfl))
    exact .inl (by rw [List.mem_singleton.1 h, same])
  · simp [isRecursive] at recursive
  · exact absurd he (not_mem_specialEntries plain)
  · rw [List.mem_singleton.1 h]
    exact .inr ⟨inside, fileName?_of_matchesName named⟩

/-- A walk along components that end in a name leads to entries of that name. -/
theorem fileName?_of_mem_walk (plain : PlainName name) :
    ∀ {cs : List MemberPattern} {p : Path}, cs.getLast? = some (name.toList.map .char) →
      m ∈ walk t cs p → m.fileName? = some name
  | [], _, ends, _ => nomatch ends
  | [c], p, ends, h => by
      obtain rfl : c = name.toList.map .char := Option.some.inj ends
      obtain rfl | ⟨-, named⟩ := mem_walk_name plain h
      · exact Path.fileName?_join plain p
      · exact named
  | c :: d :: ds, p, ends, h => by
      rw [List.getLast?_cons_cons] at ends
      obtain ⟨n, -, h⟩ | ⟨-, e, -, named, h⟩ | ⟨e, -, h⟩ | ⟨e, -, -, h⟩ := mem_walk_cons h
      · exact fileName?_of_mem_walk plain ends h
      · cases ds with
        | nil =>
            obtain rfl := Option.some.inj ends
            rw [List.mem_singleton.1 h, fileName?_of_matchesName (named _ rfl)]
        | cons d' ds =>
            rw [List.getLast?_cons_cons] at ends
            exact fileName?_of_mem_walk plain ends h
      · exact fileName?_of_mem_walk plain ends h
      · exact fileName?_of_mem_walk plain ends h

theorem exists_walk_of_mem_expand {pattern : List Char} (h : m ∈ expand t pattern) :
    ∃ rest components, pattern = '/' :: rest ∧ (Text.split '/' rest).mapM parse? = some components ∧
      m ∈ walk t (collapse components) ⟨"/"⟩ := by
  rw [expand.eq_def] at h
  split at h
  · rename_i rest
    split at h
    · rename_i components parsed
      exact ⟨rest, components, rfl, parsed, h⟩
    · cases h
  · cases h

theorem exists_of_mapM_append {α β : Type} {read : α → Option β} {as as' : List α} {bs : List β}
    (h : (as ++ as').mapM read = some bs) :
    ∃ cs cs', bs = cs ++ cs' ∧ as.mapM read = some cs ∧ as'.mapM read = some cs' := by
  rw [List.mapM_append] at h
  obtain ⟨cs, hcs, h⟩ := Option.bind_eq_some_iff.1 h
  obtain ⟨cs', hcs', h⟩ := Option.bind_eq_some_iff.1 h
  exact ⟨cs, cs', (Option.some.inj h).symm, hcs, hcs'⟩

/-- Whatever stands in front of it, a name at the end of a pattern leads to entries of that name. -/
theorem fileName?_of_mem_expand (plain : PlainName name)
    (read : parse? name.toList = some (name.toList.map .char)) {front : List Char}
    (h : m ∈ expand t (front ++ '/' :: name.toList)) : m.fileName? = some name := by
  obtain ⟨rest, components, hpattern, parsed, h⟩ := exists_walk_of_mem_expand h
  have parts : [] :: Text.split '/' rest = Text.split '/' front ++ [name.toList] := by
    rw [← Text.split_of_not_mem plain.free, ← Text.split_append, hpattern, Text.split, if_pos rfl]
  obtain ⟨first, more, hfront⟩ := List.exists_cons_of_ne_nil (Text.split_ne_nil '/' front)
  rw [hfront, List.cons_append] at parts
  rw [(List.cons.inj parts).2] at parsed
  obtain ⟨before, last, rfl, -, hlast⟩ := exists_of_mapM_append parsed
  rw [List.mapM_cons, read] at hlast
  obtain rfl := Option.some.inj hlast
  refine fileName?_of_mem_walk plain ?_ h
  rw [getLast?_collapse, List.getLast?_append]
  rfl

end DiagnosticWatch.MemberPattern
