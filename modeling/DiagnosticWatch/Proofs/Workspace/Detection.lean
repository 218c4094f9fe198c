import DiagnosticWatch.Proofs.Workspace.Members

/-!
# Which declaration decides

A kind of workspace is marked if its manifest is at the root and can be read. The first kind that is
marked decides, also by naming no project at all: then the root is the only project, whatever is
marked behind it.

Manifests that are asked later are not even read, and of the packages that patterns lead to only the
names are. So trees that differ in such things only have the same workspace.
-/

namespace DiagnosticWatch

/-- The projects that a declaration lists, if it can be read. -/
def Declaration.listed? : Declaration → Option (List Project)
  | .projects ps => some ps
  | _ => none

namespace WorkspaceFinder

open FileTree (SameShape)

variable {f : WorkspaceFinder} {ps : List Project} {kind : WorkspaceKind} {t : FileTree}
  {names : List String}

/-- The kinds of workspaces in the order in which they are asked. -/
def asked : List WorkspaceKind :=
  [.pnpm, .npm, .rush, .lerna]

def text? (f : WorkspaceFinder) (file : String) : Option String :=
  (f.tree.readText (f.root.join ⟨file⟩)).toOption

def inFolders (f : WorkspaceFinder) (folders : List Manifest.Folder) : List Project :=
  sorted (folders.filterMap fun folder =>
    f.projectAt? (f.root.join ⟨folder.folder⟩) (some folder.name))

/-- The projects of a kind of workspace, if its manifest is there and can be read. -/
def marked? (f : WorkspaceFinder) : WorkspaceKind → Option (List Project)
  | .single => none
  | .pnpm =>
    ((f.text? "pnpm-workspace.yaml").bind fun text =>
      if Text.isAllBlank text then some [] else Manifest.patterns? text).map f.members
  | .npm =>
    ((f.package? (f.root.join ⟨packageManifestFile⟩)).bind (·.members)).map f.members
  | .rush => ((f.text? "rush.json").bind Manifest.folders?).map f.inFolders
  | .lerna =>
    ((f.text? "lerna.json").bind fun text =>
      (Json.decode Manifest.patternsDecoder text).toOption).map f.members

/-- A kind that is marked, behind kinds that are not. -/
structure Decides (f : WorkspaceFinder) (kind : WorkspaceKind) (ps : List Project) : Prop where
  marked : f.marked? kind = some ps
  first : ∃ earlier later, asked = earlier ++ kind :: later ∧ ∀ k ∈ earlier, f.marked? k = none

theorem decisive?_eq (ds : List (WorkspaceKind × Declaration)) :
    decisive? ds = ds.findSome? fun d => d.2.listed?.map (d.1, ·) := by
  induction ds with
  | nil => rfl
  | cons d ds ih =>
      obtain ⟨kind, declaration⟩ := d
      cases declaration with
      | projects ps => rfl
      | absent | unreadable => exact ih

theorem listed?_declared (f : WorkspaceFinder) (file : String)
    (read : String → Option Declaration) :
    (f.declared file read).listed? =
      (f.text? file).bind fun text => (read text).bind (·.listed?) := by
  simp only [declared, text?]
  cases h : f.tree.readText (f.root.join ⟨file⟩) with
  | error e => split <;> rfl
  | ok text =>
      rw [FileTree.isFile_of_readText h, Bool.not_true, if_neg Bool.false_ne_true]
      show ((read text).getD .unreadable).listed? = (read text).bind (·.listed?)
      cases read text <;> rfl

theorem listed?_declared_map (f : WorkspaceFinder) (file : String) (read : String → Option α)
    (projects : α → List Project) :
    (f.declared file fun text => (read text).map fun a => .projects (projects a)).listed? =
      ((f.text? file).bind read).map projects := by
  rw [listed?_declared]
  cases f.text? file with
  | none => rfl
  | some text =>
      show ((read text).map _).bind _ = (read text).map projects
      cases read text <;> rfl

theorem package?_eq_text? (f : WorkspaceFinder) (file : String) :
    f.package? (f.root.join ⟨file⟩) =
      (f.text? file).bind fun text => (Json.decode Manifest.Package.decoder text).toOption := by
  rw [package?, text?]
  cases f.tree.readText (f.root.join ⟨file⟩) <;> rfl

/-- What is declared is what is marked. -/
theorem decisive?_declarations (f : WorkspaceFinder) :
    decisive? f.declarations = asked.findSome? fun k => (f.marked? k).map (k, ·) := by
  have listed : f.declarations.map (fun d => (d.1, d.2.listed?)) =
      asked.map fun k => (k, f.marked? k) := by
    simp only [declarations, asked, List.map_cons, List.map_nil, listed?_declared_map]
    -- Only a package without members is no marker although it can be read.
    refine congrArg₂ List.cons rfl (congrArg₂ List.cons (Prod.ext rfl ?_) rfl)
    simp only [listed?_declared, marked?, package?_eq_text?]
    cases f.text? packageManifestFile with
    | none => rfl
    | some text =>
        simp only [Option.bind_some]
        cases (Json.decode Manifest.Package.decoder text).toOption with
        | none => rfl
        | some package => cases hmembers : package.members <;> simp [Declaration.listed?, hmembers]
  have found := congrArg (List.findSome? fun e => e.2.map (e.1, ·)) listed
  rw [List.findSome?_map, List.findSome?_map] at found
  rw [decisive?_eq]
  exact found

theorem find_of_decides (h : f.Decides kind ps) :
    f.find true =
      if ps = [] then f.single else { root := f.root, kind, projects := ps } := by
  obtain ⟨earlier, later, hasked, unmarked⟩ := h.first
  have silent : earlier.findSome? (fun k => (f.marked? k).map (k, ·)) = none := by
    simpa using unmarked
  rw [find, decisive?_declarations, hasked, List.findSome?_append, silent, List.findSome?_cons,
    h.marked]
  cases ps <;> rfl

theorem find_of_unmarked (h : ∀ kind ∈ asked, f.marked? kind = none) : f.find true = f.single := by
  have silent : asked.findSome? (fun k => (f.marked? k).map (k, ·)) = none := by
    simpa using h
  rw [find, decisive?_declarations, silent]
  rfl

/-- A kind decides unless none is marked. -/
theorem decides_or_unmarked (f : WorkspaceFinder) :
    (∃ kind ps, f.Decides kind ps) ∨ ∀ kind ∈ asked, f.marked? kind = none := by
  cases h : asked.findSome? fun k => (f.marked? k).map (k, ·) with
  | none => exact .inr (by simpa using h)
  | some found =>
      obtain ⟨earlier, kind, later, hasked, hfound, silent⟩ := List.findSome?_eq_some_iff.1 h
      obtain ⟨ps, marked, -⟩ := Option.map_eq_some_iff.1 hfound
      exact .inl ⟨kind, ps, marked, earlier, later, hasked, by simpa using silent⟩

/-- The projects of a kind are in order, and each of them has its configuration. -/
theorem of_marked (h : f.marked? kind = some ps) :
    ps.Pairwise (fun p q => p.id < q.id) ∧
      ∀ p ∈ ps, p.configPath = p.root.join ⟨projectConfigFile⟩ ∧
        f.tree.isFile p.configPath = true := by
  have members (patterns : List String) :
      (f.members patterns).Pairwise (fun p q => p.id < q.id) ∧
        ∀ p ∈ f.members patterns,
          p.configPath = p.root.join ⟨projectConfigFile⟩ ∧ f.tree.isFile p.configPath = true := by
    refine ⟨ascending_sorted _, fun p hp => ?_⟩
    obtain ⟨dir, declared, hp⟩ := exists_projectAt?_of_mem_members hp
    exact config_of_projectAt? hp
  cases kind with
  | single => cases h
  | pnpm | npm | lerna =>
      obtain ⟨patterns, -, rfl⟩ := Option.map_eq_some_iff.1 h
      exact members patterns
  | rush =>
      obtain ⟨folders, -, rfl⟩ := Option.map_eq_some_iff.1 h
      refine ⟨ascending_sorted _, fun p hp => ?_⟩
      obtain ⟨folder, -, hp⟩ := List.mem_filterMap.1 (mem_of_mem_sorted hp)
      exact config_of_projectAt? hp

theorem Decides.kind_ne (h : f.Decides kind ps) : kind ≠ .single := by
  rintro rfl
  exact Option.some_ne_none _ (h.marked.symm.trans rfl)

/-- Either the root is the only project, or a kind decides that has projects. -/
theorem find_cases (f : WorkspaceFinder) (auto : Bool) :
    f.find auto = f.single ∨ ∃ kind ps, f.Decides kind ps ∧ ps ≠ [] ∧
      f.find auto = { root := f.root, kind, projects := ps } := by
  cases auto with
  | false => exact .inl rfl
  | true =>
      obtain ⟨kind, ps, decides⟩ | unmarked := decides_or_unmarked f
      · rw [find_of_decides decides]
        by_cases none : ps = []
        · exact .inl (if_pos none)
        · exact .inr ⟨kind, ps, decides, none, if_neg none⟩
      · exact .inl (find_of_unmarked unmarked)

/-- What holds of a workspace whatever decides about it. -/
theorem of_find {auto : Bool} {w : Workspace} (found : f.find auto = w) :
    w.root = f.root ∧ w.projects ≠ [] ∧ w.projects.Pairwise (fun p q => p.id < q.id) ∧
      (w.kind = .single → ∃ p, w.projects = [p] ∧ p.id = "." ∧ p.root = w.root) ∧
      (w.kind ≠ .single → ∀ p ∈ w.projects,
        p.configPath = p.root.join ⟨projectConfigFile⟩ ∧ f.tree.isFile p.configPath = true) := by
  obtain only | ⟨kind, ps, decides, nonempty, several⟩ := f.find_cases auto
  · obtain rfl := only.symm.trans found
    exact ⟨rfl, List.cons_ne_nil _ _, List.pairwise_singleton _ _,
      fun _ => ⟨f.rootProject, rfl, rfl, rfl⟩, fun other => absurd rfl other⟩
  · obtain rfl := several.symm.trans found
    obtain ⟨ascending, configured⟩ := of_marked decides.marked
    exact ⟨rfl, nonempty, ascending, fun single => absurd single decides.kind_ne,
      fun _ => configured⟩

/-- A kind that decides is found with its projects, if it has any. -/
theorem of_decides (h : f.Decides kind ps) :
    if ps = [] then (f.find true).kind = .single
    else (f.find true).kind = kind ∧ (f.find true).projects = ps := by
  rw [find_of_decides h]
  by_cases none : ps = [] <;> simp [none, single]

/-- The finder for the same root in another tree. -/
abbrev inTree (f : WorkspaceFinder) (t : FileTree) : WorkspaceFinder :=
  { f with tree := t }

/-- The contents that make no difference if a kind is marked, when a tree is changed to another:
those of manifests that are asked later, and for the first kind what packages say besides their
names. -/
inductive Unread (f : WorkspaceFinder) (kind : WorkspaceKind) (t : FileTree)
    (names : List String) : Prop
  | rush (later : [kind, .rush].Sublist asked)
      (place : f.tree.locate (f.root.join ⟨"rush.json"⟩) = .ok names)
  | lerna (later : [kind, .lerna].Sublist asked)
      (place : f.tree.locate (f.root.join ⟨"lerna.json"⟩) = .ok names)
  | package (first : kind = .pnpm) (manifest : Path) (before after : Manifest.Package)
      (file : manifest.fileName? = some packageManifestFile)
      (place : f.tree.locate manifest = .ok names)
      (isBefore : f.package? manifest = some before)
      (isAfter : (f.inTree t).package? manifest = some after)
      (name : before.name = after.name)

/-- Trees of one shape that differ in unread contents only. -/
structure Indifferent (f : WorkspaceFinder) (kind : WorkspaceKind) (t : FileTree) : Prop where
  shape : SameShape f.tree t
  contents : ∀ names, f.tree.node? names = t.node? names ∨ f.Unread kind t names

theorem package?_eq_of_locate {m m' : Path} (place : f.tree.locate m = .ok names)
    (place' : f.tree.locate m' = .ok names) : f.package? m = f.package? m' := by
  simp only [package?, FileTree.readText_of_locate place, FileTree.readText_of_locate place']

/-- Unread contents are known by the names of their files. -/
theorem Unread.getLast? (h : f.Unread kind t names) :
    ([kind, .rush].Sublist asked ∧ names.getLast? = some "rush.json") ∨
      ([kind, .lerna].Sublist asked ∧ names.getLast? = some "lerna.json") ∨
      (kind = .pnpm ∧ names.getLast? = some packageManifestFile) := by
  cases h with
  | rush later place =>
      exact .inl ⟨later, FileTree.getLast?_of_locate place
        (Path.fileName?_join ⟨by decide, by decide⟩ f.root)⟩
  | lerna later place =>
      exact .inr (.inl ⟨later, FileTree.getLast?_of_locate place
        (Path.fileName?_join ⟨by decide, by decide⟩ f.root)⟩)
  | package first manifest before after file place isBefore isAfter name =>
      exact .inr (.inr ⟨first, FileTree.getLast?_of_locate place file⟩)

namespace Indifferent

variable (h : f.Indifferent kind t)

include h

theorem text?_eq {file : String} (plain : Path.PlainName file)
    (rush : file = "rush.json" → ¬[kind, .rush].Sublist asked)
    (lerna : file = "lerna.json" → ¬[kind, .lerna].Sublist asked)
    (package : file = packageManifestFile → kind ≠ .pnpm) :
    f.text? file = (f.inTree t).text? file := by
  rw [text?, text?, h.shape.readText_eq fun names place => ?_]
  refine (h.contents names).resolve_right fun unread => ?_
  have last := FileTree.getLast?_of_locate place (Path.fileName?_join plain f.root)
  obtain ⟨later, found⟩ | ⟨later, found⟩ | ⟨first, found⟩ := unread.getLast?
  · exact rush (Option.some.inj (last.symm.trans found)) later
  · exact lerna (Option.some.inj (last.symm.trans found)) later
  · exact package (Option.some.inj (last.symm.trans found)) first

theorem names_eq {m : Path} (file : m.fileName? = some packageManifestFile) :
    (f.package? m).map (·.name) = ((f.inTree t).package? m).map (·.name) := by
  cases place : f.tree.locate m with
  | error e =>
      have place' := h.shape.locate_eq ▸ place
      simp only [package?, FileTree.readText_of_error place, FileTree.readText_of_error place']
  | ok names =>
      have place' := h.shape.locate_eq ▸ place
      have last := FileTree.getLast?_of_locate place file
      obtain same | unread := h.contents names
      · simp only [package?, FileTree.readText_of_locate place, FileTree.readText_of_locate place',
          same]
      · cases unread with
        | rush later other =>
            have found := FileTree.getLast?_of_locate other
              (Path.fileName?_join ⟨by decide, by decide⟩ f.root)
            exact absurd (last.symm.trans found) (by decide)
        | lerna later other =>
            have found := FileTree.getLast?_of_locate other
              (Path.fileName?_join ⟨by decide, by decide⟩ f.root)
            exact absurd (last.symm.trans found) (by decide)
        | package first manifest before after _ other isBefore isAfter name =>
            have other' := h.shape.locate_eq ▸ other
            rw [package?_eq_of_locate place other,
              package?_eq_of_locate (f := f.inTree t) place' other', isBefore, isAfter,
              Option.map_some, Option.map_some, name]

theorem members_eq : f.members = (f.inTree t).members :=
  WorkspaceFinder.members_eq rfl h.shape fun _ => names_eq h

/-- A kind that is not asked later is marked as before. -/
theorem marked?_eq {k : WorkspaceKind} (read : ¬[kind, k].Sublist asked) :
    f.marked? k = (f.inTree t).marked? k := by
  cases k with
  | single => rfl
  | pnpm =>
      rw [marked?, marked?,
        h.text?_eq ⟨by decide, by decide⟩ (by simp) (by simp)
          (by simp [packageManifestFile]), h.members_eq]
  | npm =>
      have other : kind ≠ .pnpm := by
        rintro rfl
        exact read (by decide)
      rw [marked?, marked?, package?_eq_text?, package?_eq_text?,
        h.text?_eq plain_packageManifestFile (by simp [packageManifestFile])
          (by simp [packageManifestFile]) (fun _ => other), h.members_eq]
  | rush =>
      have folders : f.inFolders = (f.inTree t).inFolders := by
        have same : f.projectAt? = (f.inTree t).projectAt? := projectAt?_eq rfl h.shape
        funext folders
        rw [inFolders, inFolders, same]
      rw [marked?, marked?,
        h.text?_eq ⟨by decide, by decide⟩ (fun _ => read) (by simp)
          (by simp [packageManifestFile]), folders]
  | lerna =>
      rw [marked?, marked?,
        h.text?_eq ⟨by decide, by decide⟩ (by simp) (fun _ => read)
          (by simp [packageManifestFile]), h.members_eq]

theorem single_eq : f.single = (f.inTree t).single := by
  have names := h.names_eq (Path.fileName?_join plain_packageManifestFile f.root)
  have declared (g : WorkspaceFinder) (m : Path) :
      (g.package? m).bind (·.name) = ((g.package? m).map (·.name)).join := by
    cases g.package? m <;> rfl
  have project : f.rootProject = (f.inTree t).rootProject := by
    simp only [rootProject, declared, names, h.shape.isFile_eq]
  rw [single, single, project]

/-- Contents that are not read make no difference. -/
theorem find_eq (marked : (f.marked? kind).isSome = true) (auto : Bool) :
    f.find auto = (f.inTree t).find auto := by
  have decisive : decisive? f.declarations = decisive? (f.inTree t).declarations := by
    obtain ⟨ps, hps⟩ := Option.isSome_iff_exists.1 marked
    rw [decisive?_declarations, decisive?_declarations]
    simp only [asked, List.findSome?_cons, List.findSome?_nil]
    -- From the first kind that is marked on, nothing is asked.
    cases kind with
    | single => cases hps
    | pnpm =>
        rw [← h.marked?_eq (k := .pnpm) (by decide), hps]
        simp only [Option.map_some]
    | npm =>
        rw [← h.marked?_eq (k := .pnpm) (by decide), ← h.marked?_eq (k := .npm) (by decide), hps]
        simp only [Option.map_some]
    | rush =>
        rw [← h.marked?_eq (k := .pnpm) (by decide), ← h.marked?_eq (k := .npm) (by decide),
          ← h.marked?_eq (k := .rush) (by decide), hps]
        simp only [Option.map_some]
    | lerna =>
        rw [← h.marked?_eq (k := .pnpm) (by decide), ← h.marked?_eq (k := .npm) (by decide),
          ← h.marked?_eq (k := .rush) (by decide), ← h.marked?_eq (k := .lerna) (by decide)]
  rw [find, find, decisive, h.single_eq]

omit h in
theorem create_eq {tree : FileTree} {root : Path}
    (h : (WorkspaceFinder.create tree root).Indifferent kind t) :
    WorkspaceFinder.create t root = (WorkspaceFinder.create tree root).inTree t := by
  show ({ tree := t, root := t.canonicalOrSame root } : WorkspaceFinder) = _
  rw [← h.shape.canonicalOrSame_eq]
  rfl

end Indifferent

end WorkspaceFinder

open WorkspaceFinder

/-- The workspace at a root: the first kind that is marked decides about the projects, and if it
names none, or if there is no such kind, the root is the only project. -/
theorem Workspace.detect_decided (tree : FileTree) (root : Path) (auto : Bool) :
    let f := WorkspaceFinder.create tree root
    let w := Workspace.detect tree root auto
    w.root = f.root ∧ w.projects ≠ [] ∧ w.projects.Pairwise (fun p q => p.id < q.id) ∧
      (auto = false → w.kind = .single) ∧
      (auto = true →
        (∀ kind ps, f.Decides kind ps →
          if ps = [] then w.kind = .single else w.kind = kind ∧ w.projects = ps) ∧
        ((∀ kind ∈ asked, f.marked? kind = none) → w.kind = .single)) ∧
      (w.kind = .single → ∃ p, w.projects = [p] ∧ p.id = "." ∧ p.root = w.root) ∧
      (w.kind ≠ .single → ∀ p ∈ w.projects,
        p.configPath = p.root.join ⟨projectConfigFile⟩ ∧ tree.isFile p.configPath = true) ∧
      ∀ kind other, (f.marked? kind).isSome = true → f.Indifferent kind other →
        Workspace.detect other root auto = w := by
  intro f w
  have found : f.find auto = w := rfl
  obtain ⟨rooted, nonempty, ascending, single, several⟩ := of_find found
  refine ⟨rooted, nonempty, ascending, ?off, ?on, single, several, ?unread⟩
  case off =>
    intro h
    rw [← found, h]
    rfl
  case on =>
    intro h
    rw [← found, h]
    refine ⟨fun kind ps decides => of_decides decides, fun unmarked => ?_⟩
    rw [find_of_unmarked unmarked]
    rfl
  case unread =>
    intro kind other marked h
    rw [Workspace.detect, h.create_eq]
    exact (h.find_eq marked auto).symm

/-- A workspace with packages that two kinds of workspaces would find. -/
def twoKinds : FileTree :=
  ⟨.ofList
    [(["w"], .directory), (["w", "a"], .directory),
      (["w", "a", "package.json"], .file "\x7b\x7d".toUTF8 false),
      (["w", "a", "tsconfig.json"], .file "\x7b\x7d".toUTF8 false),
      (["w", "package.json"], .file "\x7b\"workspaces\": [\"b\"]\x7d".toUTF8 false),
      (["w", "pnpm-workspace.yaml"], .file "packages: [a]".toUTF8 false),
      (["w", "rush.json"], .file "\x7b\x7d".toUTF8 false)]⟩

/-- The first kind decides, whatever becomes of the manifests that are asked later. -/
theorem Workspace.detect_decided_rewritten :
    let f := WorkspaceFinder.create twoKinds ⟨"/w"⟩
    let other := (twoKinds.rewrite ["w", "rush.json"] "?".toUTF8).rewrite ["w", "package.json"]
      "\x7b\"workspaces\": []\x7d".toUTF8
    let a : Project := ⟨"a", "a", ⟨"/w/a"⟩, ⟨"/w/a/tsconfig.json"⟩⟩
    let w := Workspace.detect twoKinds ⟨"/w"⟩ true
    f.Decides .pnpm [a] ∧ f.Indifferent .pnpm other ∧ w.kind = .pnpm ∧ w.projects = [a] ∧
      Workspace.detect other ⟨"/w"⟩ true = w := by
  intro f other a w
  have decides : f.Decides .pnpm [a] :=
    ⟨by decide +kernel, [], [.npm, .rush, .lerna], rfl, by simp⟩
  have marked : (f.marked? .pnpm).isSome = true := by rw [decides.marked, Option.isSome_some]
  have indifferent : f.Indifferent .pnpm other := by
    refine ⟨(FileTree.sameShape_rewrite ..).trans (FileTree.sameShape_rewrite ..), fun names => ?_⟩
    by_cases rush : names = ["w", "rush.json"]
    · rw [rush]
      exact .inr (.rush (by decide) (by decide +kernel))
    · by_cases package : names = ["w", "package.json"]
      · rw [package]
        exact .inr (.package rfl (f.root.join ⟨packageManifestFile⟩) ⟨none, some ["b"]⟩
          ⟨none, some []⟩ (by decide +kernel) (by decide +kernel) (by decide +kernel)
          (by decide +kernel) rfl)
      · refine .inl (Eq.symm ?_)
        have here : f.tree = twoKinds := rfl
        rw [FileTree.node?_rewrite_of_ne package, FileTree.node?_rewrite_of_ne rush, here]
  obtain ⟨-, -, -, -, on, -, -, unread⟩ := detect_decided twoKinds ⟨"/w"⟩ true
  obtain ⟨kind, projects⟩ : w.kind = .pnpm ∧ w.projects = [a] := (on rfl).1 .pnpm [a] decides
  exact ⟨decides, indifferent, kind, projects, unread .pnpm other marked indifferent⟩

end DiagnosticWatch
