import DiagnosticWatch.Proofs.Workspace.Patterns

/-!
# Patterns that lead down

The way from the root of a tree to some directory is walked by an escaped text, each of whose
components matches itself only. From there on a walk goes down by names, unless a component matches
`..`. No wildcard does so in front of a name, but `.*` does.
-/

namespace DiagnosticWatch.MemberPattern

open DiagnosticWatch.Path (PlainName Descends)

variable {t : FileTree} {p m e : Path} {name : String} {c : MemberPattern} {cs : List MemberPattern}

/-- How an escaped character is read. -/
def escaped (c : Char) : PatternToken :=
  if ['?', '*', '[', ']'].contains c then .oneOf false [(c, c)] else .char c

theorem escape_cons (c : Char) (part : List Char) :
    escape (c :: part) =
      (if ['?', '*', '[', ']'].contains c then ['[', c, ']'] else [c]) ++ escape part :=
  List.flatMap_cons

theorem parseFrom?_escape (part : List Char) {rounds : Nat} {previous : Option Char}
    (enough : (escape part).length ≤ rounds) :
    parseFrom? rounds previous (escape part) = some (part.map escaped) := by
  induction part generalizing rounds previous with
  | nil => cases rounds <;> rfl
  | cons c part ih =>
      rw [escape_cons, List.length_append] at enough
      have visible :
          0 < (if ['?', '*', '[', ']'].contains c then ['[', c, ']'] else [c]).length := by
        split <;> exact Nat.succ_pos _
      obtain ⟨rounds, rfl⟩ : ∃ n, rounds = n + 1 := Nat.exists_eq_add_one_of_ne_zero (by omega)
      have rest (previous : Option Char) :
          parseFrom? rounds previous (escape part) = some (part.map escaped) := ih (by omega)
      rw [escape_cons, List.map_cons]
      by_cases special : ['?', '*', '[', ']'].contains c = true
      · have token : class? (c :: ']' :: escape part) = some (escaped c, escape part) := by
          have known : c = '?' ∨ c = '*' ∨ c = '[' ∨ c = ']' := by simpa using special
          obtain rfl | rfl | rfl | rfl := known <;> simp [class?, escaped, ranges]
        rw [if_pos special]
        simp [parseFrom?, token, rest]
      · have plain : escaped c = .char c := if_neg special
        obtain ⟨any, run, opening, -⟩ : c ≠ '?' ∧ c ≠ '*' ∧ c ≠ '[' ∧ c ≠ ']' := by
          simpa using special
        rw [if_neg special, List.singleton_append, plain, parseFrom?]
        · rw [rest]
          rfl
        all_goals simp [any, run, opening]

theorem isMatch_escaped_cons (c d : Char) (ts : MemberPattern) (text : List Char) :
    isMatch (escaped c :: ts) (d :: text) = (decide (d = c) && isMatch ts text) := by
  rw [escaped]
  split
  · have single : inRanges [(c, c)] d = decide (d = c) := by
      rw [Bool.eq_iff_iff, decide_eq_true_iff]
      constructor
      · intro h
        obtain ⟨low, high⟩ : c ≤ d ∧ d ≤ c := by simpa [inRanges] using h
        exact Char.le_antisymm high low
      · rintro rfl
        simp [inRanges]
    simp [isMatch, single]
  · simp [isMatch, Bool.beq_eq_decide_eq]

/-- An escaped text matches itself only. -/
theorem isMatch_escaped (part text : List Char) :
    isMatch (part.map escaped) text = true ↔ text = part := by
  induction part generalizing text with
  | nil => simp [isMatch]
  | cons c part ih =>
      cases text with
      | nil =>
          rw [List.map_cons, escaped]
          split <;> simp [isMatch]
      | cons d text => simp [isMatch_escaped_cons, ih]

theorem not_mem_escape {part : List Char} (free : '/' ∉ part) : '/' ∉ escape part := by
  intro h
  obtain ⟨c, hc, h⟩ := List.mem_flatMap.1 h
  have other : c ≠ '/' := fun root => free (root ▸ hc)
  split at h <;> simp [other.symm] at h

theorem escape_join (parts : List (List Char)) :
    escape (Text.join '/' parts) = Text.join '/' (parts.map escape) := by
  induction parts with
  | nil => rfl
  | cons part parts ih =>
      cases parts with
      | nil => rfl
      | cons next parts =>
          have joined : escape (part ++ '/' :: Text.join '/' (next :: parts)) =
              escape part ++ '/' :: escape (Text.join '/' (next :: parts)) :=
            List.flatMap_append
          rw [Text.join, joined, ih]
          · rfl
          · simp

/-- The parts of an escaped text are the escaped parts of the text. -/
theorem split_escape (text : List Char) :
    Text.split '/' (escape text) = (Text.split '/' text).map escape := by
  have free : ∀ part ∈ (Text.split '/' text).map escape, '/' ∉ part :=
    List.forall_mem_map.2 fun part hpart => not_mem_escape (Text.not_mem_of_mem_split hpart)
  calc Text.split '/' (escape text)
      = Text.split '/' (escape (Text.join '/' (Text.split '/' text))) := by rw [Text.join_split]
    _ = Text.split '/' (Text.join '/' ((Text.split '/' text).map escape)) := by rw [escape_join]
    _ = (Text.split '/' text).map escape :=
        Text.split_join (by simp [Text.split_ne_nil]) free

theorem not_isRecursive_escaped (part : List Char) : isRecursive (part.map escaped) = false := by
  rw [isRecursive, Bool.eq_false_iff]
  intro h
  obtain ⟨c, -, hc⟩ := List.mem_map.1 (List.contains_iff_mem.1 h)
  rw [escaped] at hc
  split at hc <;> cases hc

theorem suffix_of_dropWhile {p : Char → Bool} {cs rest : List Char} {c : Char}
    (h : cs.dropWhile p = c :: rest) : rest <:+ cs :=
  (List.suffix_cons c rest).trans (h ▸ List.dropWhile_suffix p)

theorem class?_suffix {cs rest : List Char} {token : PatternToken}
    (h : class? cs = some (token, rest)) : rest <:+ cs ∧ ∀ d, token ≠ .char d := by
  rw [class?.eq_def] at h
  simp only at h
  split at h
  · split at h
    · cases h
    · rename_i closes
      cases h
      refine ⟨(suffix_of_dropWhile closes).trans ?_, by simp⟩
      exact (List.suffix_cons _ _).trans (List.suffix_cons _ _)
  · cases h
  · split at h
    · cases h
    · rename_i closes
      cases h
      exact ⟨(suffix_of_dropWhile closes).trans (List.suffix_cons _ _), by simp⟩
  · cases h

/-- The characters of a pattern that stand for themselves are characters of its text. -/
theorem mem_of_mem_parseFrom? {rounds : Nat} {previous : Option Char} {cs : List Char} {d : Char}
    (h : parseFrom? rounds previous cs = some c) (hd : .char d ∈ c) : d ∈ cs := by
  induction rounds generalizing previous cs c with
  | zero =>
      cases cs with
      | nil =>
          obtain rfl : [] = c := Option.some.inj h
          cases hd
      | cons first cs => cases h
  | succ n ih =>
      -- A round takes one token off the text, and the next ones read what is left.
      have later {token : PatternToken} {rest : List Char} {previous : Option Char}
          (h : (parseFrom? n previous rest).map (token :: ·) = some c)
          (here : ∀ d, token = .char d → d ∈ cs) (inner : rest <:+ cs) : d ∈ cs := by
        obtain ⟨q, hq, rfl⟩ := Option.map_eq_some_iff.1 h
        obtain hd | hd := List.mem_cons.1 hd
        · exact here d hd.symm
        · exact inner.subset (ih hq hd)
      cases cs with
      | nil =>
          obtain rfl : [] = c := Option.some.inj h
          cases hd
      | cons first cs =>
          rw [parseFrom?.eq_def] at h
          simp only at h
          split at h
          · exact later h (by simp) (List.suffix_cons _ _)
          · cases h
          · split at h
            · cases h
            · split at h
              · obtain rfl := Option.some.inj h
                simp at hd
              · rename_i rest _ _
                exact later h (by simp) ⟨['*', '*', '/'], rfl⟩
              · cases h
          · exact later h (by simp) (List.suffix_cons _ _)
          · split at h
            · rename_i hclass
              obtain ⟨inner, other⟩ := class?_suffix hclass
              exact later h (fun d same => absurd same (other d))
                (inner.trans (List.suffix_cons _ _))
            · cases h
          · refine later h (fun d same => ?_) (List.suffix_cons _ _)
            rw [PatternToken.char.inj same]
            exact List.mem_cons_self

theorem collapse_append {front : List MemberPattern} (h : ∀ c ∈ front, isRecursive c = false) :
    collapse (front ++ cs) = front ++ collapse cs := by
  induction front with
  | nil => rfl
  | cons c front ih =>
      obtain ⟨single, rest⟩ := List.forall_mem_cons.1 h
      rw [List.cons_append, collapse, ih rest, List.cons_append]
      cases front ++ collapse cs with
      | nil => rfl
      | cons d ds => simp [single]

theorem mem_of_mem_collapse (h : c ∈ collapse cs) : c ∈ cs := by
  induction cs with
  | nil => cases h
  | cons d cs ih =>
      rw [collapse] at h
      cases hcs : collapse cs with
      | nil =>
          rw [hcs] at h
          rw [List.mem_singleton.1 h]
          exact List.mem_cons_self
      | cons q qs =>
          rw [hcs] at h ih
          simp only at h
          split at h
          · exact List.mem_cons_of_mem _ (ih h)
          · obtain rfl | h := List.mem_cons.1 h
            · exact List.mem_cons_self
            · exact List.mem_cons_of_mem _ (ih h)

/-- An escaped part is followed as it is written. -/
theorem mem_walk_escaped (named : t.HasNames) {part : List Char}
    (h : m ∈ walk t (part.map escaped :: cs) p) : m ∈ walk t cs (p.join ⟨String.ofList part⟩) := by
  obtain ⟨n, hn, h⟩ | ⟨recursive, -⟩ | ⟨e, he, h⟩ | ⟨e, he, matched, h⟩ := mem_walk_cons h
  · have same : n.toList = part :=
      (isMatch_escaped part n.toList).1 (literal?_eq_some_iff.1 hn ▸ (isMatch_chars _ _).2 rfl)
    rwa [← same, String.ofList_toList]
  · rw [not_isRecursive_escaped] at recursive
    cases recursive
  · have same := (isMatch_escaped _ _).1 (mem_specialEntries he).2.2
    rwa [← same, String.ofList_toList]
  · obtain ⟨n, plain, rfl⟩ := FileTree.exists_name_of_mem_entries named he
    rw [matchesName, Path.fileName?_join plain] at matched
    have same : n.toList = part := (isMatch_escaped _ _).1 matched
    rwa [← same, String.ofList_toList]

/-- Escaped parts lead along the components of the parts. -/
theorem exists_of_mem_walk_escaped (named : t.HasNames) {parts : List (List Char)}
    (free : ∀ part ∈ parts, '/' ∉ part) (absolute : p.isAbsolute = true)
    (h : m ∈ walk t (parts.map (·.map escaped) ++ cs) p) :
    ∃ q : Path, q.isAbsolute = true ∧
      q.location = p.location ++ parts.filterMap Path.component? ∧ m ∈ walk t cs q := by
  induction parts generalizing p with
  | nil => exact ⟨p, absolute, (List.append_nil _).symm, h⟩
  | cons part parts ih =>
      obtain ⟨first, rest⟩ := List.forall_mem_cons.1 free
      have nonempty : p.text ≠ "" := fun empty => by simp [Path.isAbsolute, empty] at absolute
      obtain ⟨q, hq, hlocation, h⟩ :=
        ih rest (Path.isAbsolute_join absolute _) (mem_walk_escaped named h)
      refine ⟨q, hq, ?_, h⟩
      rw [hlocation, Path.location_join_part nonempty (by rwa [String.toList_ofList]),
        String.toList_ofList, List.append_assoc]
      cases component : Path.component? part <;> simp [component]

/-- Whether a component can lead up. -/
def climbs (c : MemberPattern) : Bool :=
  c.head? == some (.char '.') && isMatch c ['.', '.']

theorem not_climbs_of_plain (plain : PlainName name) : climbs (name.toList.map .char) = false := by
  rw [climbs, Bool.and_eq_false_iff]
  refine .inr (Bool.eq_false_iff.2 fun up => ?_)
  have component := plain.component
  rw [← (isMatch_chars _ _).1 up, Path.component?] at component
  cases component

/-- A component that does not climb leads down if it has no wildcards. -/
theorem descends_of_literal (level : climbs c = false) (free : .char '/' ∉ c)
    (absolute : p.isAbsolute = true) (h : literal? c = some name) :
    Descends p (p.join ⟨name⟩) := by
  obtain rfl := literal?_eq_some_iff.1 h
  refine .join_part absolute (fun slash => free (List.mem_map_of_mem slash)) ?_
  rintro rfl
  exact absurd level (by decide)

/-- A component that does not climb leads to no special entry but that of the directory itself. -/
theorem descends_of_special (level : climbs c = false) (absolute : p.isAbsolute = true)
    (h : e ∈ specialEntries c) : Descends p (p.join e) := by
  obtain ⟨dot, rfl | rfl, matched⟩ := mem_specialEntries h
  · exact .join_part absolute (by decide) (by decide)
  · have up : climbs c = true := by
      rw [climbs, dot, Bool.and_eq_true]
      exact ⟨rfl, matched⟩
    rw [level] at up
    cases up

theorem descends_of_entry (named : t.HasNames) (absolute : p.isAbsolute = true)
    (h : e ∈ t.entries p) : Descends p e := by
  obtain ⟨n, plain, rfl⟩ := FileTree.exists_name_of_mem_entries named h
  show Descends p (p.joinAll [n])
  exact .joinAll absolute (by simpa using plain)

/-- Components that do not climb lead down, and from there the last one leads to a name. -/
theorem exists_parent_of_mem_walk (named : t.HasNames) (plain : PlainName name) :
    ∀ {cs : List MemberPattern} {p : Path}, p.isAbsolute = true →
      cs.getLast? = some (name.toList.map .char) →
      (∀ c ∈ cs, climbs c = false ∧ .char '/' ∉ c) → m ∈ walk t cs p →
        ∃ q, Descends p q ∧ m = q.join ⟨name⟩
  | [], _, _, ends, _, _ => nomatch ends
  | [c], p, absolute, ends, _, h => by
      obtain rfl : c = name.toList.map .char := Option.some.inj ends
      refine ⟨p, .refl absolute, ?_⟩
      obtain rfl | ⟨inside, found⟩ := mem_walk_name plain h
      · rfl
      · obtain ⟨n, plain', rfl⟩ := FileTree.exists_name_of_mem_entries named inside
        rw [Path.fileName?_join plain'] at found
        rw [Option.some.inj found]
  | c :: d :: ds, p, absolute, ends, level, h => by
      rw [List.getLast?_cons_cons] at ends
      obtain ⟨⟨levelHere, free⟩, level⟩ := List.forall_mem_cons.1 level
      have further {e : Path} (down : Descends p e) (h : m ∈ walk t (d :: ds) e) :
          ∃ q, Descends p q ∧ m = q.join ⟨name⟩ := by
        obtain ⟨q, hq, hm⟩ := exists_parent_of_mem_walk named plain down.1 ends level h
        exact ⟨q, down.trans hq, hm⟩
      obtain ⟨n, hn, h⟩ | ⟨-, e, he, matched, h⟩ | ⟨e, he, h⟩ | ⟨e, he, -, h⟩ := mem_walk_cons h
      · exact further (descends_of_literal levelHere free absolute hn) h
      · obtain ⟨names, nonempty, plain', rfl⟩ :=
          FileTree.exists_names_of_mem_entriesBelow named he
        cases ds with
        | nil =>
            obtain rfl := Option.some.inj ends
            have found := fileName?_of_matchesName (matched _ rfl)
            obtain ⟨front, last, rfl⟩ : ∃ front last, names = front ++ [last] :=
              ⟨_, _, (List.dropLast_concat_getLast nonempty).symm⟩
            obtain ⟨plainFront, plainLast⟩ := List.forall_mem_append.1 plain'
            rw [Path.joinAll_concat,
              Path.fileName?_join (plainLast last List.mem_cons_self)] at found
            refine ⟨p.joinAll front, .joinAll absolute plainFront, ?_⟩
            rw [List.mem_singleton.1 h, Path.joinAll_concat, Option.some.inj found]
        | cons d' ds =>
            rw [List.getLast?_cons_cons] at ends
            obtain ⟨q, hq, hm⟩ := exists_parent_of_mem_walk named plain
              (Path.isAbsolute_joinAll absolute names) ends
              (fun c hc => level c (List.mem_cons_of_mem _ hc)) h
            exact ⟨q, (Descends.joinAll absolute plain').trans hq, hm⟩
      · exact further (descends_of_special levelHere absolute he) h
      · exact further (descends_of_entry named absolute he) h

/-- A text none of whose components leads up. -/
def IsLevel (pattern : List Char) : Prop :=
  ∀ part ∈ Text.split '/' pattern, ∀ c ∈ parse? part, climbs c = false

instance (pattern : List Char) : Decidable (IsLevel pattern) :=
  inferInstanceAs (Decidable (∀ part ∈ Text.split '/' pattern, ∀ c ∈ parse? part, climbs c = false))

theorem mapM_parse?_escape (parts : List (List Char)) :
    (parts.map escape).mapM parse? = some (parts.map (·.map escaped)) := by
  induction parts with
  | nil => rfl
  | cons part parts ih =>
      have first : parse? (escape part) = some (part.map escaped) :=
        parseFrom?_escape part (Nat.le_refl _)
      rw [List.map_cons, List.mapM_cons, first, ih]
      rfl

/-- An absolute pattern behind an escaped path needs an absolute path. -/
theorem exists_text_of_escape {text rest : List Char} (nonempty : text ≠ [])
    (h : escape text ++ rest = '/' :: rest') : ∃ cs, text = '/' :: cs := by
  cases text with
  | nil => exact absurd rfl nonempty
  | cons c cs =>
      rw [escape_cons] at h
      split at h
      · cases (List.cons.inj h).1
      · rw [(List.cons.inj h).1]
        exact ⟨cs, rfl⟩

theorem exists_of_mem_mapM {α β : Type} {read : α → Option β} {as : List α} {bs : List β} {b : β}
    (h : as.mapM read = some bs) (hb : b ∈ bs) : ∃ a ∈ as, read a = some b := by
  induction as generalizing bs with
  | nil =>
      obtain rfl : [] = bs := Option.some.inj h
      cases hb
  | cons a as ih =>
      rw [List.mapM_cons] at h
      obtain ⟨first, hfirst, h⟩ := Option.bind_eq_some_iff.1 h
      obtain ⟨rest, hrest, h⟩ := Option.bind_eq_some_iff.1 h
      obtain rfl := Option.some.inj h
      obtain rfl | hb := List.mem_cons.1 hb
      · exact ⟨a, List.mem_cons_self, hfirst⟩
      · obtain ⟨a', ha', h⟩ := ih hrest hb
        exact ⟨a', List.mem_cons_of_mem _ ha', h⟩

/-- Components of a level pattern do not climb. -/
theorem IsLevel.of_mapM {pattern : List Char} (level : IsLevel pattern)
    (h : (Text.split '/' pattern).mapM parse? = some cs) :
    ∀ c ∈ cs, climbs c = false ∧ .char '/' ∉ c := by
  intro c hc
  obtain ⟨part, hpart, hread⟩ := exists_of_mem_mapM h hc
  exact ⟨level part hpart c hread, fun slash =>
    Text.not_mem_of_mem_split hpart (mem_of_mem_parseFrom? hread slash)⟩

theorem IsLevel.of_mem_collapse {pattern : List Char} (level : IsLevel pattern)
    (h : (Text.split '/' pattern).mapM parse? = some cs) (plain : PlainName name) :
    ∀ c ∈ collapse (cs ++ [name.toList.map .char]), climbs c = false ∧ .char '/' ∉ c := by
  intro c hc
  obtain hc | hc := List.mem_append.1 (mem_of_mem_collapse hc)
  · exact level.of_mapM h c hc
  · rw [List.mem_singleton.1 hc]
    exact ⟨not_climbs_of_plain plain, by simpa using plain.free⟩

/-- Behind an escaped path a pattern that ends in a name is walked from the root: first along the
path, then along the components of the pattern. -/
theorem exists_walk_of_mem_expand_escape (plain : PlainName name)
    (read : parse? name.toList = some (name.toList.map .char)) (nonempty : p.text ≠ "")
    {pattern : List Char}
    (h : m ∈ expand t (escape p.text.toList ++ '/' :: pattern ++ '/' :: name.toList)) :
    ∃ way components, p.text.toList = '/' :: way ∧
      (Text.split '/' pattern).mapM parse? = some components ∧
      m ∈ walk t ((Text.split '/' way).map (·.map escaped) ++
        collapse (components ++ [name.toList.map .char])) ⟨"/"⟩ := by
  obtain ⟨rest, components, hpattern, parsed, h⟩ := exists_walk_of_mem_expand h
  rw [List.append_assoc] at hpattern
  obtain ⟨way, htext⟩ := exists_text_of_escape (by simpa using nonempty) hpattern
  have escapes : escape ('/' :: way) = '/' :: escape way := rfl
  rw [htext, escapes, List.cons_append] at hpattern
  have parts : Text.split '/' rest =
      ((Text.split '/' way).map escape ++ Text.split '/' pattern) ++ [name.toList] := by
    rw [← (List.cons.inj hpattern).2, List.cons_append, Text.split_append, Text.split_append,
      split_escape, Text.split_of_not_mem plain.free, List.append_assoc]
  rw [parts] at parsed
  obtain ⟨before, last, rfl, hbefore, hlast⟩ := exists_of_mapM_append parsed
  obtain ⟨escapedWay, inner, rfl, hway, hinner⟩ := exists_of_mapM_append hbefore
  rw [mapM_parse?_escape] at hway
  obtain rfl := Option.some.inj hway
  rw [List.mapM_cons, read] at hlast
  obtain rfl := Option.some.inj hlast
  have single : ∀ c ∈ (Text.split '/' way).map (·.map escaped), isRecursive c = false :=
    List.forall_mem_map.2 fun part _ => not_isRecursive_escaped part
  rw [List.append_assoc, collapse_append single] at h
  exact ⟨way, inner, htext, hinner, h⟩

/-- Behind an escaped directory a level pattern leads down to entries of the name it ends in. -/
theorem exists_parent_of_mem_expand (named : t.HasNames) (plain : PlainName name)
    (read : parse? name.toList = some (name.toList.map .char)) (nonempty : p.text ≠ "")
    {pattern : List Char} (level : IsLevel pattern)
    (h : m ∈ expand t (escape p.text.toList ++ '/' :: pattern ++ '/' :: name.toList)) :
    p.isAbsolute = true ∧ ∃ q, Descends p q ∧ m = q.join ⟨name⟩ := by
  obtain ⟨way, components, htext, parsed, h⟩ :=
    exists_walk_of_mem_expand_escape plain read nonempty h
  have absolute : p.isAbsolute = true := by rw [Path.isAbsolute, htext]; rfl
  obtain ⟨q, hq, hlocation, h⟩ := exists_of_mem_walk_escaped named
    (fun part hpart => Text.not_mem_of_mem_split hpart) rfl h
  have same : q.location = p.location := by
    rw [hlocation, Path.location, Path.location, htext, Path.componentsOf]
    rfl
  have ends : (collapse (components ++ [name.toList.map .char])).getLast? =
      some (name.toList.map .char) := by
    rw [getLast?_collapse, List.getLast?_concat]
  obtain ⟨q', ⟨hq', names, plain', hlocation'⟩, hm⟩ :=
    exists_parent_of_mem_walk named plain hq ends (level.of_mem_collapse parsed plain) h
  exact ⟨absolute, q', ⟨hq', names, plain', by rw [hlocation', same]⟩, hm⟩

end DiagnosticWatch.MemberPattern
