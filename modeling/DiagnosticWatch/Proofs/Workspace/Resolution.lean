import DiagnosticWatch.Proofs.Workspace.Descent
import DiagnosticWatch.Proofs.Workspace.Members
import Mathlib.Data.List.Forall2

/-!
# Packages as a set of directories

Patterns that do not lead up stand for a set of directories below the root of a workspace: those
whose manifests they lead to and can be read, that have a configuration, and that nothing keeps out.
There is one project for each of them, whatever patterns and paths lead to it. So it makes no
difference in which order patterns come and how often.

A pattern like `.?` leads up although it has no component `..`, and the directory above the root
takes the id of the root.
-/

namespace DiagnosticWatch

open MemberPattern (IsLevel)
open DiagnosticWatch.Path (PlainName)

/-- Projects that differ in the spelling of their paths at most. -/
structure Project.Alike (p q : Project) : Prop where
  id : p.id = q.id
  name : p.name = q.name
  root : p.root.same q.root = true
  configPath : p.configPath.same q.configPath = true

namespace WorkspaceFinder

variable {f : WorkspaceFinder} {p q : Project} {patterns others names : List String} {dir m : Path}

/-- The directory that some names below the root lead to. -/
def directory (f : WorkspaceFinder) (names : List String) : Path :=
  f.root.joinAll names

def packageIn? (f : WorkspaceFinder) (names : List String) : Option Manifest.Package :=
  f.package? ((f.directory names).join ⟨packageManifestFile⟩)

def idOfNames : List String → String
  | [] => "."
  | names => Text.joinTexts '/' names

/-- The directories that patterns stand for. -/
structure Belongs (f : WorkspaceFinder) (patterns names : List String) : Prop where
  plain : ∀ name ∈ names, PlainName name
  found : ∃ text ∈ patterns, negated? text = none ∧
    ∃ m ∈ f.manifestsOf (cleanPattern text.toList),
      m.same ((f.directory names).join ⟨packageManifestFile⟩) = true
  own : "node_modules" ∉ names
  kept : ∀ text ∈ patterns, ∀ pattern ∈ negated? text, ∀ e ∈ MemberPattern.parse? pattern,
    MemberPattern.isMatch e (idOfNames names).toList = false
  package : (f.packageIn? names).isSome = true
  configured : f.tree.isFile ((f.directory names).join ⟨projectConfigFile⟩) = true

/-- The project in a directory below the root, whatever path leads to it. -/
structure IsProjectIn (f : WorkspaceFinder) (names : List String) (p : Project) : Prop where
  id : p.id = idOfNames names
  name : ∃ package, f.packageIn? names = some package ∧
    p.name = projectName package.name (f.directory names)
  root : p.root.same (f.directory names) = true
  configPath : p.configPath = p.root.join ⟨projectConfigFile⟩

/-- A path that leads to a directory below the root. -/
structure LeadsTo (f : WorkspaceFinder) (names : List String) (dir : Path) : Prop where
  absolute : dir.isAbsolute = true
  location : dir.location = f.root.location ++ names.map .normal

theorem leadsTo_directory (absolute : f.root.isAbsolute = true)
    (plain : ∀ name ∈ names, PlainName name) : f.LeadsTo names (f.directory names) :=
  ⟨Path.isAbsolute_joinAll absolute names, Path.location_joinAll plain f.root⟩

theorem names_normal (names : List String) : Path.names (names.map .normal) = names := by
  rw [Path.names, List.filterMap_map]
  exact List.filterMap_some

theorem plain_projectConfigFile : PlainName projectConfigFile := by
  decide

namespace LeadsTo

variable (h : f.LeadsTo names dir)

include h

theorem idOf_eq : f.idOf dir = idOfNames names := by
  rw [idOf, Path.below?_of_location h.location, Option.getD_some, names_normal]
  cases names <;> rfl

variable {dir' : Path} (h' : f.LeadsTo names dir')

include h'

theorem same : dir.location = dir'.location := by
  rw [h.location, h'.location]

theorem package?_eq : f.package? (dir.join ⟨packageManifestFile⟩) =
    f.package? (dir'.join ⟨packageManifestFile⟩) := by
  have place := FileTree.locate_join_congr f.tree (h.same h')
    plain_packageManifestFile
  rw [package?, package?, FileTree.readText, FileTree.readText, place]

theorem isFile_eq : f.tree.isFile (dir.join ⟨projectConfigFile⟩) =
    f.tree.isFile (dir'.join ⟨projectConfigFile⟩) :=
  f.tree.isFile_join_congr (h.same h') plain_projectConfigFile

theorem projectName_eq (declared : Option String) :
    projectName declared dir = projectName declared dir' := by
  rw [projectName, projectName, nameOf, nameOf, Path.fileName?, Path.fileName?, h.same h']

end LeadsTo

/-- The parts of an id are the names. -/
theorem split_idOfNames (plain : ∀ name ∈ names, PlainName name) (nonempty : names ≠ []) :
    Text.split '/' (idOfNames names).toList = names.map String.toList := by
  have joined : idOfNames names = Text.joinTexts '/' names := by
    cases names with
    | nil => exact absurd rfl nonempty
    | cons name names => rfl
  rw [joined, Text.joinTexts, String.toList_ofList, Text.split_join (by simpa using nonempty)]
  exact List.forall_mem_map.2 fun name hname => (plain name hname).free

/-- Directories below the root are told apart by their ids. -/
theorem idOfNames_inj (plain : ∀ name ∈ names, PlainName name)
    (plain' : ∀ name ∈ others, PlainName name) (h : idOfNames names = idOfNames others) :
    names = others := by
  have dot {names : List String} (plain : ∀ name ∈ names, PlainName name)
      (h : idOfNames names = ".") : names = [] := by
    by_contra nonempty
    have parts := split_idOfNames plain nonempty
    rw [h] at parts
    have only : names.map String.toList = [".".toList] := parts.symm
    obtain ⟨name, rfl⟩ := List.length_eq_one_iff.1 (by simpa using congrArg List.length only)
    have same : name = "." := String.toList_inj.1 (List.cons.inj only).1
    subst same
    exact absurd (plain "." List.mem_cons_self) (by decide)
  by_cases none : names = []
  · rw [none] at h ⊢
    exact (dot plain' h.symm).symm
  · by_cases none' : others = []
    · rw [none'] at h
      exact absurd (dot plain h) none
    · have parts := split_idOfNames plain none
      rw [h, split_idOfNames plain' none'] at parts
      exact (List.map_injective_iff.2 (fun _ _ => String.toList_inj.1) parts).symm

theorem isExcluded_eq_false_iff (plain : ∀ name ∈ names, PlainName name)
    {exclusions : List MemberPattern} :
    isExcluded exclusions (idOfNames names) = false ↔
      "node_modules" ∉ names ∧
        ∀ e ∈ exclusions, MemberPattern.isMatch e (idOfNames names).toList = false := by
  have own : (Text.split '/' (idOfNames names).toList).contains "node_modules".toList = false ↔
      "node_modules" ∉ names := by
    by_cases none : names = []
    · rw [none]
      simp only [List.not_mem_nil, not_false_eq_true, iff_true]
      decide
    · rw [split_idOfNames plain none, Bool.eq_false_iff, ne_eq, List.contains_iff_mem]
      refine not_congr ⟨fun h => ?_, fun h => List.mem_map_of_mem h⟩
      obtain ⟨name, hname, same⟩ := List.mem_map.1 h
      rwa [← String.toList_inj.1 same]
  rw [isExcluded, Bool.or_eq_false_iff, own, List.any_eq_false]
  simp only [Bool.not_eq_true]

theorem mem_exclusions {e : MemberPattern} :
    e ∈ exclusions patterns ↔
      ∃ text ∈ patterns, ∃ pattern ∈ negated? text, e ∈ MemberPattern.parse? pattern := by
  simp only [exclusions, List.mem_filterMap, Option.mem_def]
  constructor
  · rintro ⟨pattern, ⟨text, htext, hpattern⟩, he⟩
    exact ⟨text, htext, pattern, hpattern, he⟩
  · rintro ⟨text, htext, pattern, hpattern, he⟩
    exact ⟨pattern, ⟨text, htext, hpattern⟩, he⟩

/-- A level pattern leads to manifests in directories below the root. -/
theorem exists_leadsTo_of_mem_manifestsOf (named : f.tree.HasNames) (root : f.root.text ≠ "")
    {pattern : List Char} (level : IsLevel pattern) (h : m ∈ f.manifestsOf pattern) :
    f.root.isAbsolute = true ∧ ∃ names dir, (∀ name ∈ names, PlainName name) ∧
      f.LeadsTo names dir ∧ m = dir.join ⟨packageManifestFile⟩ := by
  obtain ⟨absolute, dir, ⟨hdir, names, plain, hlocation⟩, hm⟩ :=
    MemberPattern.exists_parent_of_mem_expand named plain_packageManifestFile
      parse?_packageManifestFile root level h
  exact ⟨absolute, names, dir, plain, ⟨hdir, hlocation⟩, hm⟩

theorem LeadsTo.exists_parent (h : f.LeadsTo names dir) :
    ∃ dir', (dir.join ⟨packageManifestFile⟩).parent? = some dir' ∧ f.LeadsTo names dir' := by
  obtain ⟨dir', hparent, hlocation⟩ :=
    Path.exists_parent (Path.location_join plain_packageManifestFile dir) (by simp)
  refine ⟨dir', hparent, ?_, by rw [hlocation, h.location]⟩
  rw [Path.isAbsolute_congr hlocation, h.absolute]

section Member

variable {exclusions : List MemberPattern} (absolute : f.root.isAbsolute = true)
  (plain : ∀ name ∈ names, PlainName name) (h : f.LeadsTo names dir)

include absolute plain h

/-- The member that a manifest makes is the project in its directory. -/
theorem of_member?_eq_some (hp : f.member? exclusions (dir.join ⟨packageManifestFile⟩) = some p) :
    isExcluded exclusions (idOfNames names) = false ∧
      f.tree.isFile ((f.directory names).join ⟨projectConfigFile⟩) = true ∧
        f.IsProjectIn names p := by
  have here := leadsTo_directory absolute plain
  obtain ⟨dir', hparent, h'⟩ := h.exists_parent
  obtain ⟨dir'', declared, hparent', kept, named, hproject⟩ := member?_eq_some_iff.1 hp
  obtain rfl := Option.some.inj (hparent.symm.trans hparent')
  obtain ⟨package, hpackage, rfl⟩ := Option.map_eq_some_iff.1 named
  rw [h'.idOf_eq] at kept
  rw [projectAt?, h'.isFile_eq here] at hproject
  split at hproject
  · rename_i configured
    obtain rfl := Option.some.inj hproject
    refine ⟨kept, configured, h'.idOf_eq, ⟨package, ?_, h'.projectName_eq here _⟩, ?_, rfl⟩
    · rwa [packageIn?, ← h.package?_eq here]
    · exact decide_eq_true (h'.same here)
  · cases hproject

theorem exists_member? (kept : isExcluded exclusions (idOfNames names) = false)
    (package : (f.packageIn? names).isSome = true)
    (configured : f.tree.isFile ((f.directory names).join ⟨projectConfigFile⟩) = true) :
    ∃ p, f.member? exclusions (dir.join ⟨packageManifestFile⟩) = some p := by
  have here := leadsTo_directory absolute plain
  obtain ⟨dir', hparent, h'⟩ := h.exists_parent
  obtain ⟨package, hpackage⟩ := Option.isSome_iff_exists.1 package
  have project : ∃ p, f.projectAt? dir' package.name = some p := by
    simp only [projectAt?]
    rw [h'.isFile_eq here, if_pos configured]
    exact ⟨_, rfl⟩
  obtain ⟨p, hp⟩ := project
  refine ⟨p, member?_eq_some_iff.2 ⟨dir', package.name, hparent, ?_, ?_, hp⟩⟩
  · rwa [h'.idOf_eq]
  · rw [h.package?_eq here, ← packageIn?, hpackage, Option.map_some]

end Member

/-- Patterns of which none leads up. -/
def AreLevel (patterns : List String) : Prop :=
  ∀ text ∈ patterns, negated? text = none → IsLevel (cleanPattern text.toList)

instance (patterns : List String) : Decidable (AreLevel patterns) :=
  inferInstanceAs
    (Decidable (∀ text ∈ patterns, negated? text = none → IsLevel (cleanPattern text.toList)))

theorem mem_inclusions {pattern : List Char} :
    pattern ∈ inclusions patterns ↔
      ∃ text ∈ patterns, negated? text = none ∧ cleanPattern text.toList = pattern := by
  simp [inclusions, and_assoc]

section Level

variable (named : f.tree.HasNames) (root : f.root.text ≠ "") (level : AreLevel patterns)

include named root level

/-- Every member is the project in a directory that the patterns stand for. -/
theorem exists_belongs_of_mem_members (hp : p ∈ f.members patterns) :
    ∃ names, f.Belongs patterns names ∧ f.IsProjectIn names p := by
  obtain ⟨m, hm, hp⟩ := List.mem_filterMap.1 (mem_of_mem_sorted hp)
  obtain ⟨pattern, hpattern, hm⟩ := List.mem_flatMap.1 hm
  obtain ⟨text, htext, included, rfl⟩ := mem_inclusions.1 hpattern
  obtain ⟨absolute, names, dir, plain, h, rfl⟩ :=
    exists_leadsTo_of_mem_manifestsOf named root (level text htext included) hm
  obtain ⟨kept, configured, project⟩ := of_member?_eq_some absolute plain h hp
  obtain ⟨own, kept⟩ := (isExcluded_eq_false_iff plain).1 kept
  obtain ⟨package, hpackage, -⟩ := project.name
  have here := leadsTo_directory absolute plain
  refine ⟨names, ⟨plain, ⟨text, htext, included, _, hm, ?_⟩, own, ?_, ?_, configured⟩, project⟩
  · rw [Path.same, decide_eq_true_iff, Path.location_join plain_packageManifestFile,
      Path.location_join plain_packageManifestFile, h.same here]
  · intro text htext pattern hpattern e he
    exact kept e (mem_exclusions.2 ⟨text, htext, pattern, hpattern, he⟩)
  · rw [hpackage]
    rfl

/-- Every directory that the patterns stand for has a member. -/
theorem exists_member_of_belongs (h : f.Belongs patterns names) :
    ∃ p ∈ f.members patterns, p.id = idOfNames names := by
  obtain ⟨text, htext, included, m, hm, same⟩ := h.found
  obtain ⟨absolute, names', dir, plain', h', rfl⟩ :=
    exists_leadsTo_of_mem_manifestsOf named root (level text htext included) hm
  have here := leadsTo_directory absolute h.plain
  obtain rfl : names' = names := by
    rw [Path.same, decide_eq_true_iff, Path.location_join plain_packageManifestFile,
      Path.location_join plain_packageManifestFile, h'.location, here.location] at same
    have cancelled := List.append_cancel_left (List.append_cancel_right same)
    exact List.map_injective_iff.2 (fun _ _ => Component.normal.inj) cancelled
  have kept : isExcluded (exclusions patterns) (idOfNames names') = false := by
    refine (isExcluded_eq_false_iff h.plain).2 ⟨h.own, fun e he => ?_⟩
    obtain ⟨text, htext, pattern, hpattern, he⟩ := mem_exclusions.1 he
    exact h.kept text htext pattern hpattern e he
  obtain ⟨p, hp⟩ := exists_member? absolute h.plain h' kept h.package h.configured
  have found : p ∈ ((inclusions patterns).flatMap f.manifestsOf).filterMap
      (f.member? (exclusions patterns)) :=
    List.mem_filterMap.2 ⟨_, List.mem_flatMap.2
      ⟨_, mem_inclusions.2 ⟨text, htext, included, rfl⟩, hm⟩, hp⟩
  obtain ⟨q, hq, hid⟩ := exists_mem_sorted found
  exact ⟨q, hq, hid.trans (of_member?_eq_some absolute h.plain h' hp).2.2.id⟩

end Level

theorem IsProjectIn.alike (h : f.IsProjectIn names p) (h' : f.IsProjectIn names q) : p.Alike q := by
  obtain ⟨package, hpackage, hname⟩ := h.name
  obtain ⟨package', hpackage', hname'⟩ := h'.name
  obtain rfl := Option.some.inj (hpackage.symm.trans hpackage')
  have root : p.root.location = q.root.location :=
    (of_decide_eq_true h.root).trans (of_decide_eq_true h'.root).symm
  refine ⟨h.id.trans h'.id.symm, hname.trans hname'.symm, decide_eq_true root, ?_⟩
  rw [h.configPath, h'.configPath, Path.same, decide_eq_true_iff,
    Path.location_join plain_projectConfigFile, Path.location_join plain_projectConfigFile, root]

theorem forall₂_alike {dirs : List (List String)} {ps qs : List Project}
    (h : List.Forall₂ f.IsProjectIn dirs ps) (h' : List.Forall₂ f.IsProjectIn dirs qs) :
    List.Forall₂ Project.Alike ps qs := by
  induction h generalizing qs with
  | nil =>
      cases h'
      exact .nil
  | cons hp _ ih =>
      cases h' with
      | cons hq rest => exact .cons (hp.alike hq) (ih rest)

/-- Patterns that bring packages in take no directory away. -/
theorem Belongs.include (h : f.Belongs patterns names) (kept : ∀ text ∈ patterns, text ∈ others)
    (new : ∀ text ∈ others, text ∈ patterns ∨ negated? text = none) : f.Belongs others names := by
  obtain ⟨text, htext, found⟩ := h.found
  refine { h with found := ⟨text, kept text htext, found⟩, kept := ?_ }
  intro text htext pattern hpattern
  obtain old | none := new text htext
  · exact h.kept text old pattern hpattern
  · rw [none] at hpattern
    cases hpattern

/-- Patterns that take packages out add no directory. -/
theorem Belongs.exclude (h : f.Belongs others names) (kept : ∀ text ∈ patterns, text ∈ others)
    (new : ∀ text ∈ others, text ∈ patterns ∨ (negated? text).isSome = true) :
    f.Belongs patterns names := by
  obtain ⟨text, htext, included, found⟩ := h.found
  have old : text ∈ patterns := (new text htext).resolve_right (by simp [included])
  exact
    { h with
      found := ⟨text, old, included, found⟩
      kept := fun text htext => h.kept text (kept text htext) }

theorem eq_of_ascending {dirs dirs' : List (List String)}
    (h : dirs.Pairwise fun a b => idOfNames a < idOfNames b)
    (h' : dirs'.Pairwise fun a b => idOfNames a < idOfNames b)
    (same : ∀ names, names ∈ dirs ↔ names ∈ dirs') : dirs = dirs' := by
  have nodup {dirs : List (List String)}
      (h : dirs.Pairwise fun a b => idOfNames a < idOfNames b) : dirs.Nodup := by
    refine h.imp ?_
    rintro names _ lt rfl
    exact String.lt_irrefl _ lt
  refine List.Perm.eq_of_pairwise (fun a b _ _ lt gt => ?_) h h'
    ((List.perm_ext_iff_of_nodup (nodup h) (nodup h')).2 same)
  exact absurd gt (String.lt_asymm lt)

/-- The directories that patterns stand for, in the order of their members. -/
theorem exists_directories (named : f.tree.HasNames) (root : f.root.text ≠ "")
    (level : AreLevel patterns) :
    ∃ dirs : List (List String), (∀ names, names ∈ dirs ↔ f.Belongs patterns names) ∧
      dirs.Pairwise (fun a b => idOfNames a < idOfNames b) ∧
      List.Forall₂ f.IsProjectIn dirs (f.members patterns) := by
  have every :
      ∀ p ∈ f.members patterns, ∃ names, f.Belongs patterns names ∧ f.IsProjectIn names p :=
    fun p hp => exists_belongs_of_mem_members named root level hp
  choose! namesOf belongs project using every
  refine ⟨(f.members patterns).map namesOf, fun names => ⟨fun h => ?_, fun h => ?_⟩, ?_, ?_⟩
  · obtain ⟨p, hp, rfl⟩ := List.mem_map.1 h
    exact belongs p hp
  · obtain ⟨p, hp, hid⟩ := exists_member_of_belongs named root level h
    have same : namesOf p = names :=
      idOfNames_inj (belongs p hp).plain h.plain ((project p hp).id.symm.trans hid)
    exact List.mem_map.2 ⟨p, hp, same⟩
  · refine List.pairwise_map.2 ((ascending_sorted _).imp_of_mem fun hp hq lt => ?_)
    rwa [← (project _ hp).id, ← (project _ hq).id]
  · exact List.forall₂_map_left_iff.2 (List.forall₂_same.2 project)

theorem exists_alike (h : f.Belongs others names) (hp : f.IsProjectIn names p)
    (named : f.tree.HasNames) (root : f.root.text ≠ "") (level : AreLevel others) :
    ∃ q ∈ f.members others, p.Alike q := by
  obtain ⟨q, hq, hid⟩ := exists_member_of_belongs named root level h
  obtain ⟨names', h', hq'⟩ := exists_belongs_of_mem_members named root level hq
  obtain rfl := idOfNames_inj h.plain h'.plain (hid.symm.trans hq'.id)
  exact ⟨q, hq, hp.alike hq'⟩

/-- Patterns that do not lead up stand for a set of directories, and their members are the projects
in these directories, one for each, in the order of their ids. So the members are the same for the
same patterns in any order and number, patterns that bring packages in take no member away, and
patterns that take packages out add none. -/
theorem members_of_level (named : f.tree.HasNames) (root : f.root.text ≠ "")
    (level : AreLevel patterns) :
    (∃ dirs : List (List String), (∀ names, names ∈ dirs ↔ f.Belongs patterns names) ∧
        dirs.Pairwise (fun a b => idOfNames a < idOfNames b) ∧
        List.Forall₂ f.IsProjectIn dirs (f.members patterns)) ∧
      (∀ others, (∀ text, text ∈ others ↔ text ∈ patterns) →
        List.Forall₂ Project.Alike (f.members patterns) (f.members others)) ∧
      (∀ others, AreLevel others → (∀ text ∈ patterns, text ∈ others) →
        (∀ text ∈ others, text ∈ patterns ∨ negated? text = none) →
          ∀ p ∈ f.members patterns, ∃ q ∈ f.members others, p.Alike q) ∧
      ∀ others, (∀ text ∈ patterns, text ∈ others) →
        (∀ text ∈ others, text ∈ patterns ∨ (negated? text).isSome = true) →
          ∀ p ∈ f.members others, ∃ q ∈ f.members patterns, p.Alike q := by
  obtain ⟨dirs, hdirs, ascending, projects⟩ := exists_directories named root level
  refine ⟨⟨dirs, hdirs, ascending, projects⟩, ?_, ?_, ?_⟩
  · intro others same
    have level' : AreLevel others := fun text htext => level text ((same text).1 htext)
    obtain ⟨dirs', hdirs', ascending', projects'⟩ := exists_directories named root level'
    have belongs (names : List String) : f.Belongs patterns names ↔ f.Belongs others names :=
      ⟨fun h => h.include (fun text => (same text).2) fun text htext => .inl ((same text).1 htext),
        fun h => h.include (fun text => (same text).1) fun text htext => .inl ((same text).2 htext)⟩
    obtain rfl : dirs = dirs' :=
      eq_of_ascending ascending ascending' fun names => by rw [hdirs, hdirs', belongs]
    exact forall₂_alike projects projects'
  · intro others level' kept new p hp
    obtain ⟨names, h, project⟩ := exists_belongs_of_mem_members named root level hp
    exact exists_alike (h.include kept new) project named root level'
  · intro others kept new p hp
    have level' : AreLevel others := fun text htext included =>
      level text ((new text htext).resolve_right (by simp [included])) included
    obtain ⟨names, h, project⟩ := exists_belongs_of_mem_members named root level' hp
    exact exists_alike (h.exclude kept new) project named root level

/-- A workspace with a package in its root, two packages below it, and a dependency. -/
def packages : WorkspaceFinder where
  root := ⟨"/w"⟩
  tree :=
    ⟨.ofList
      [(["w"], .directory), (["w", "a"], .directory), (["w", "b"], .directory),
        (["w", "b", "node_modules"], .directory), (["w", "b", "node_modules", "c"], .directory),
        (["w", "a", "package.json"], .file "\x7b\x7d".toUTF8 false),
        (["w", "a", "tsconfig.json"], .file "\x7b\x7d".toUTF8 false),
        (["w", "b", "package.json"], .file "\x7b\"name\": \"bee\"\x7d".toUTF8 false),
        (["w", "b", "tsconfig.json"], .file "\x7b\x7d".toUTF8 false),
        (["w", "b", "node_modules", "c", "package.json"], .file "\x7b\x7d".toUTF8 false),
        (["w", "b", "node_modules", "c", "tsconfig.json"], .file "\x7b\x7d".toUTF8 false),
        (["w", "package.json"], .file "\x7b\x7d".toUTF8 false),
        (["w", "tsconfig.json"], .file "\x7b\x7d".toUTF8 false)]⟩

/-- Several patterns lead to one package and spell its path in different ways. -/
def overlapping : List String :=
  ["**", "a", "./[ab]/./", "!.", "***", "b", "a"]

theorem members_of_level_overlapping :
    packages.tree.HasNames ∧ packages.root.text ≠ "" ∧ AreLevel overlapping ∧
      (∃ dirs : List (List String),
        (∀ names, names ∈ dirs ↔ packages.Belongs overlapping names) ∧
          dirs.Pairwise (fun a b => idOfNames a < idOfNames b) ∧
          List.Forall₂ packages.IsProjectIn dirs (packages.members overlapping)) ∧
      List.Forall₂ Project.Alike (packages.members overlapping)
        (packages.members overlapping.reverse) ∧
      (packages.members overlapping).map (·.id) = ["a", "b"] := by
  have named : packages.tree.HasNames := by decide +kernel
  have root : packages.root.text ≠ "" := by decide
  have level : AreLevel overlapping := by decide +kernel
  obtain ⟨directories, reordered, -⟩ := members_of_level named root level
  exact ⟨named, root, level, directories, reordered _ fun _ => List.mem_reverse, by decide +kernel⟩

/-- A package in the root of a workspace and one in the directory above it. -/
def enclosed : WorkspaceFinder where
  root := ⟨"/w"⟩
  tree :=
    ⟨.ofList
      [(["package.json"], .file "\x7b\"name\": \"outer\"\x7d".toUTF8 false),
        (["tsconfig.json"], .file "\x7b\x7d".toUTF8 false),
        (["w"], .directory),
        (["w", "package.json"], .file "\x7b\"name\": \"inner\"\x7d".toUTF8 false),
        (["w", "tsconfig.json"], .file "\x7b\x7d".toUTF8 false)]⟩

/-- No component is written `..`, but a pattern leads up. Which of the two packages is the member
depends on the order of the patterns. -/
theorem members_above_root :
    enclosed.tree.HasNames ∧ enclosed.root.text ≠ "" ∧
      (∀ text ∈ [".", ".?"], "..".toList ∉ Text.split '/' text.toList) ∧
      enclosed.members [".", ".?"] = [⟨".", "outer", ⟨"/w/.."⟩, ⟨"/w/../tsconfig.json"⟩⟩] ∧
      enclosed.members [".?", "."] = [⟨".", "inner", ⟨"/w"⟩, ⟨"/w/tsconfig.json"⟩⟩] := by
  refine ⟨?_, ?_, ?_, ?_, ?_⟩ <;> decide +kernel

end WorkspaceFinder

end DiagnosticWatch
