import DiagnosticWatch.Ignore.Filter
import DiagnosticWatch.Proofs.Ignore.Segments
import DiagnosticWatch.Proofs.Path.Join

/-!
# Ignored directories

The default globs keep out every path that has one of some directory names among its names below the
root, and nothing else. The globs are matched against a text, the names of the path joined by
separators, so a name of the path is a part of that text between separators; a name that only
contains the one of an ignored directory is a different part. The globs of the user add to what is
kept out and take nothing back, and the one path that is never ignored has no such name.
-/

namespace DiagnosticWatch

namespace Path

/-- A path is made of the parts of its text, behind a component for the root or the directory
itself. -/
theorem exists_parts (p : Path) :
    ∃ (lead : Location) (parts : List (List Char)),
      p.location = lead ++ parts.filterMap component? ∧
        (lead = [] ∨ lead = [.root] ∨ lead = [.current]) ∧
        ∀ part ∈ parts, '/' ∉ part ∧ part ⊆ p.text.toList := by
  have ofSplit {cs part : List Char} (h : part ∈ Text.split '/' cs) : '/' ∉ part ∧ part ⊆ cs :=
    ⟨Text.not_mem_of_mem_split h, Text.join_split '/' cs ▸ Text.subset_join h⟩
  rw [location]
  generalize p.text.toList = text
  unfold componentsOf
  split
  · exact ⟨[], [], rfl, .inl rfl, by simp⟩
  · rename_i cs
    refine ⟨[.root], Text.split '/' cs, rfl, .inr (.inl rfl), ?_⟩
    intro part hpart
    obtain ⟨free, within⟩ := ofSplit hpart
    exact ⟨free, List.subset_cons_of_subset _ within⟩
  · split
    · rename_i parts hsplit
      refine ⟨[.current], parts, rfl, .inr (.inr rfl), ?_⟩
      intro part hpart
      exact ofSplit (hsplit ▸ List.mem_cons_of_mem _ hpart)
    · exact ⟨[], _, rfl, .inl rfl, fun part hpart => ofSplit hpart⟩

/-- Only the first component can be the root. -/
theorem root_not_mem_tail (p : Path) : Component.root ∉ p.location.tail := by
  obtain ⟨lead, parts, hlocation, hlead, -⟩ := p.exists_parts
  have behind := root_not_mem parts
  rw [hlocation]
  obtain rfl | rfl | rfl := hlead
  · exact fun hmem => behind (List.mem_of_mem_tail hmem)
  · exact behind
  · exact behind

/-- A name stands in the text of the path, between separators. -/
theorem name_of_mem_location {p : Path} {name : String} (h : .normal name ∈ p.location) :
    '/' ∉ name.toList ∧ name.toList ⊆ p.text.toList := by
  obtain ⟨lead, parts, hlocation, hlead, hparts⟩ := p.exists_parts
  rw [hlocation, List.mem_append] at h
  obtain h | h := h
  · obtain rfl | rfl | rfl := hlead <;> simp at h
  · obtain ⟨part, hpart, hname⟩ := List.mem_filterMap.1 h
    obtain ⟨h, -⟩ | h := component?_eq_some hname
    · cases h
    · obtain rfl := Component.normal.inj h
      rw [String.toList_ofList]
      exact hparts part hpart

theorem mem_names {l : Location} {name : String} : name ∈ names l ↔ .normal name ∈ l := by
  simp only [names, List.mem_filterMap]
  constructor
  · rintro ⟨c, hc, h⟩
    cases c with
    | normal _ =>
        obtain rfl := Option.some.inj h
        exact hc
    | root | current | parent => cases h
  · intro h
    exact ⟨_, h, rfl⟩

/-- What is left of a path, seen from a root: the components behind those of the root, or all of
them if the path does not lie below it. -/
def remainder (root p : Path) : Location :=
  if root.location <+: p.location then p.location.drop root.location.length else p.location

theorem below?_go (base l : Location) :
    below?.go base l = if base <+: l then some (l.drop base.length) else none := by
  fun_induction below?.go base l with
  | case1 rest => simp
  | case2 b bs => simp
  | case3 b bs cs ih => simpa using ih
  | case4 b bs c cs apart => simp [apart]

theorem remainder_suffix (root p : Path) : remainder root p <:+ p.location := by
  rw [remainder]
  split
  · exact List.drop_suffix ..
  · exact List.suffix_refl _

end Path

namespace IgnoreFilter

open DiagnosticWatch.Path

variable {f : IgnoreFilter} {root p : Path} {name : String}

theorem relativeLocation_eq (h : f.root = some root) (p : Path) :
    f.relativeLocation p = remainder root p := by
  rw [relativeLocation, h, remainder]
  simp only [below?, below?_go]
  split <;> rfl

/-- Whether a component stands in the text that globs are matched against. -/
def isVisible : Component → Bool
  | .root | .normal _ => true
  | .current | .parent => false

theorem relative_eq (f : IgnoreFilter) (p : Path) :
    f.relative p = (ofLocation ((f.relativeLocation p).filter isVisible)).text := by
  rw [relative]
  congr
  funext c
  cases c <;> rfl

theorem filter_of_no_root {l : Location} (h : .root ∉ l) :
    l.filter isVisible = (names l).map .normal := by
  induction l with
  | nil => rfl
  | cons c l ih =>
      obtain ⟨hc, hl⟩ : .root ≠ c ∧ .root ∉ l := by simpa using h
      cases c with
      | root => exact absurd rfl hc
      | current | parent => exact ih hl
      | normal name => exact congrArg (List.cons (.normal name)) (ih hl)

/-- The text of a path is its names with separators between them, and one in front if it starts at
the root of the file system. -/
theorem exists_relative (h : f.root = some root) (p : Path) :
    ∃ lead, (lead = [] ∨ lead = ['/']) ∧
      (f.relative p).toList =
        lead ++ Text.join '/' ((names (remainder root p)).map String.toList) := by
  have behind : .root ∉ (remainder root p).tail := by
    obtain ⟨front, hp⟩ := remainder_suffix root p
    intro hmem
    refine p.root_not_mem_tail ?_
    rw [← hp]
    cases front with
    | nil => exact hmem
    | cons c front => exact List.mem_append_right _ (List.mem_of_mem_tail hmem)
  rw [relative_eq, relativeLocation_eq h]
  by_cases first : .root ∈ remainder root p
  · obtain ⟨l, hl⟩ : ∃ l, remainder root p = .root :: l := by
      cases hr : remainder root p with
      | nil =>
          rw [hr] at first
          cases first
      | cons c l =>
          rw [hr] at first behind
          obtain rfl | hmem := List.mem_cons.1 first
          · exact ⟨l, rfl⟩
          · exact absurd hmem behind
    rw [hl] at behind ⊢
    refine ⟨['/'], .inr rfl, ?_⟩
    rw [List.filter_cons_of_pos rfl, filter_of_no_root (l := l) behind, toList_ofLocation_root]
    rfl
  · exact ⟨[], .inl rfl, by rw [filter_of_no_root first, toList_ofLocation_names, List.nil_append]⟩

/-- Seen as a text between separators, a name of the path is still a name of the path. -/
theorem mem_split_relative (h : f.root = some root) (p : Path) (nonempty : name ≠ "") :
    name.toList ∈ Text.split '/' (f.relative p).toList ↔ .normal name ∈ remainder root p := by
  have free : ∀ part ∈ (names (remainder root p)).map String.toList, '/' ∉ part := by
    intro part hpart
    obtain ⟨n, hn, rfl⟩ := List.mem_map.1 hpart
    exact (name_of_mem_location ((remainder_suffix root p).subset (mem_names.1 hn))).1
  have nonempty : name.toList ≠ [] := fun hnil => nonempty (String.toList_eq_nil_iff.1 hnil)
  have joined : name.toList ∈ Text.split '/' (Text.join '/' ((names (remainder root p)).map
      String.toList)) ↔ .normal name ∈ remainder root p := by
    rw [← mem_names]
    cases hnames : names (remainder root p) with
    | nil => simpa [Text.join, Text.split] using nonempty
    | cons n ns =>
        rw [hnames] at free
        rw [Text.split_join (by simp) free, List.mem_map]
        constructor
        · rintro ⟨m, hm, same⟩
          exact String.toList_inj.1 same ▸ hm
        · intro hmem
          exact ⟨name, hmem, rfl⟩
  obtain ⟨lead, rfl | rfl, htext⟩ := exists_relative h p
  · rw [htext, List.nil_append, joined]
  · rw [htext, List.singleton_append, Text.split, if_pos rfl, List.mem_cons, joined]
    exact or_iff_right nonempty

theorem newline_not_mem_relative (h : f.root = some root) (line : '\n' ∉ p.text.toList) :
    '\n' ∉ (f.relative p).toList := by
  obtain ⟨lead, hlead, htext⟩ := exists_relative h p
  rw [htext, List.mem_append]
  rintro (hmem | hmem)
  · obtain rfl | rfl := hlead <;> simp at hmem
  · obtain hsep | ⟨part, hpart, hc⟩ := Text.mem_join hmem
    · exact absurd hsep (by decide)
    · obtain ⟨n, hn, rfl⟩ := List.mem_map.1 hpart
      have within := name_of_mem_location ((remainder_suffix root p).subset (mem_names.1 hn))
      exact line (within.2 hc)

end IgnoreFilter

namespace Glob

/-- The segments of a glob for everything that has a name somewhere on its way. -/
def anywhere (name : String) : List Segment :=
  [.globstar, .name (name.toList.map .plain), .globstar]

theorem ofSegments_anywhere (name : String) :
    ofSegments (anywhere name) = "**/" ++ name ++ "/**" := by
  have text : (name.toList.map Atom.plain).flatMap Atom.text = name.toList := by
    rw [List.flatMap_map]
    exact List.flatMap_singleton' _
  rw [← String.toList_inj]
  simp [ofSegments, anywhere, Segment.text, Text.join, text, String.toList_append]

theorem matchesName_plain (cs w : List Char) :
    matchesName (cs.map .plain) w = true ↔ w = cs := by
  induction cs generalizing w with
  | nil => exact List.isEmpty_iff
  | cons c cs ih =>
      cases w with
      | nil => simp [matchesName]
      | cons d w =>
          rw [List.map_cons, matchesName, Bool.and_eq_true, ih, beq_iff_eq, List.cons.injEq]
          exact and_congr_left' eq_comm

theorem matchesSegments_anywhere (name : String) (parts : List (List Char)) :
    matchesSegments (anywhere name) parts = true ↔ name.toList ∈ parts := by
  simp only [anywhere, matchesSegments, List.any_eq_true, List.mem_tails]
  constructor
  · rintro ⟨rest, ⟨front, rfl⟩, h⟩
    cases rest with
    | nil => cases h
    | cons part rest =>
        rw [matchesSegments, Bool.and_eq_true, matchesName_plain] at h
        rw [h.1]
        exact List.mem_append_right _ List.mem_cons_self
  · intro hmem
    obtain ⟨front, rest, rfl⟩ := List.append_of_mem hmem
    refine ⟨_, List.suffix_append _ _, ?_⟩
    rw [matchesSegments, Bool.and_eq_true, matchesName_plain]
    exact ⟨rfl, matchesSegments_globstar rest⟩

/-- A name that can stand in a glob as it is. -/
def IsLiteral (name : String) : Prop :=
  name ≠ "" ∧ ∀ c ∈ name.toList, (Atom.plain c).isValid = true

instance (name : String) : Decidable (IsLiteral name) :=
  haveI := List.decidableBAll (fun c => (Atom.plain c).isValid = true) name.toList
  inferInstanceAs (Decidable (_ ∧ _))

theorem wellFormed_anywhere {name : String} (literal : IsLiteral name) :
    WellFormed (anywhere name) := by
  have atoms : (Segment.name (name.toList.map .plain)).IsValid := by
    refine ⟨?_, List.forall_mem_map.2 literal.2, ?_⟩
    · rw [Ne, List.map_eq_nil_iff]
      exact fun hnil => literal.1 (String.toList_eq_nil_iff.1 hnil)
    · exact List.Pairwise.isChain (List.pairwise_map.2 (List.pairwise_of_forall (by simp)))
  refine ⟨List.cons_ne_nil _ _, ?_, ?_⟩
  · simpa [anywhere, Segment.IsValid] using atoms
  · simp [anywhere]

/-- The glob for a name anywhere can be used, and it matches the paths of one line that have the
name. -/
theorem exists_pattern_anywhere {name : String} (literal : IsLiteral name) :
    ∃ p, pattern? ("**/" ++ name ++ "/**") = some p ∧ ∀ path : String, '\n' ∉ path.toList →
      (p.occursIn path = true ↔ name.toList ∈ Text.split '/' path.toList) := by
  have htokens : tokens ("**/" ++ name ++ "/**").toList = segmentTokens (anywhere name) := by
    rw [← ofSegments_anywhere, tokens, ofSegments, String.toList_ofList]
    exact tokensFrom_segments (wellFormed_anywhere literal) rfl
  have plain : ∀ t ∈ tokens ("**/" ++ name ++ "/**").toList, t.IsPlain :=
    htokens ▸ isPlain_segmentTokens (anywhere name)
  obtain ⟨p, hp⟩ := exists_pattern plain
  refine ⟨p, hp, fun path line => ?_⟩
  rw [occursIn_iff (fun t ht => (plain t ht).1) hp, htokens,
    mem_words_segments (wellFormed_anywhere literal) line, matchesSegments_anywhere]

end Glob

namespace IgnoreFilter

open DiagnosticWatch.Path

theorem isLiteral_of_ignored : ∀ name ∈ ignoredDirectories, Glob.IsLiteral name := by
  decide +kernel

theorem config_not_ignored :
    ∀ name ∈ ignoredDirectories, name.toList ∉ Text.split '/' projectConfigFile.toList := by
  decide +kernel

def Denied (root p : Path) : Prop :=
  ∃ name ∈ ignoredDirectories, .normal name ∈ remainder root p

instance (root p : Path) : Decidable (Denied root p) :=
  inferInstanceAs (Decidable (∃ name ∈ ignoredDirectories, _))

/-- The default globs keep a path out, whatever globs the user adds, if it has the name of an
ignored directory below the root; on their own they keep out no other path. -/
theorem ignored_by_default (root : Path) {p : Path} (line : '\n' ∉ p.text.toList) :
    (Denied root p → ∀ globs, (create (some root) globs).isIgnored p = true) ∧
      ((create (some root) []).isIgnored p = true → Denied root p) := by
  constructor
  · rintro ⟨name, hname, hmem⟩ globs
    have literal := isLiteral_of_ignored name hname
    have hroot : (create (some root) globs).root = some root := rfl
    have part := (mem_split_relative hroot p literal.1).2 hmem
    obtain ⟨pattern, hpattern, matched⟩ := Glob.exists_pattern_anywhere literal
    rw [isIgnored, Bool.and_eq_true]
    constructor
    · -- The text that is never ignored is a single name, and no ignored one.
      rw [bne_iff_ne]
      intro config
      rw [config] at part
      exact config_not_ignored name hname part
    · rw [List.any_eq_true]
      refine ⟨_, mem_patterns_create.2 ⟨List.mem_append_left _ ?_, hpattern⟩, ?_⟩
      · exact List.mem_map_of_mem hname
      · exact (matched _ (newline_not_mem_relative hroot line)).2 part
  · intro ignored
    have hroot : (create (some root) []).root = some root := rfl
    rw [isIgnored, Bool.and_eq_true, List.any_eq_true] at ignored
    obtain ⟨-, ⟨glob, pattern⟩, hpattern, found⟩ := ignored
    obtain ⟨hglob, hpattern⟩ := mem_patterns_create.1 hpattern
    rw [List.append_nil] at hglob
    obtain ⟨name, hname, rfl⟩ := List.mem_map.1 hglob
    have literal := isLiteral_of_ignored name hname
    obtain ⟨q, hq, matched⟩ := Glob.exists_pattern_anywhere literal
    obtain rfl := Option.some.inj (hpattern.symm.trans hq)
    have part := (matched _ (newline_not_mem_relative hroot line)).1 found
    exact ⟨name, hname, (mem_split_relative hroot p literal.1).1 part⟩

/-- Below a root that has an ignored name itself, `out` is ignored in spite of a glob that makes no
sense, and `rebuild` is not. -/
theorem ignored_by_default_belowBuild :
    let root : Path := ⟨"/home/build/repo"⟩
    let ignored : Path := ⟨"/home/build/repo/packages/./web/out/main.js"⟩
    let watched : Path := ⟨"/home/build/repo/rebuild/tsconfig.json"⟩
    ('\n' ∉ ignored.text.toList ∧ '\n' ∉ watched.text.toList) ∧
      (create (some root) ["[z-a]"]).isIgnored ignored = true ∧
        (create (some root) []).isIgnored watched = false := by
  intro root ignored watched
  have line : '\n' ∉ ignored.text.toList := by decide
  have line' : '\n' ∉ watched.text.toList := by decide
  refine ⟨⟨line, line'⟩, (ignored_by_default root line).1 (by decide +kernel) ["[z-a]"], ?_⟩
  rw [Bool.eq_false_iff]
  intro hit
  exact absurd ((ignored_by_default root line').2 hit) (by decide +kernel)

end IgnoreFilter

end DiagnosticWatch
