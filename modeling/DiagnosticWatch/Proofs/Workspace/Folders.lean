import DiagnosticWatch.Proofs.Workspace.Detection
import DiagnosticWatch.Proofs.Workspace.Resolution

/-!
# Projects in listed folders

A manifest that lists folders makes a project for every folder with a configuration. Projects are
told apart by their ids, and an id is made of names only: `..` leaves nothing in it, nor does the
root of a directory that is not below that of the workspace. As long as folders lead down, their ids
are the same exactly if they lead to the same directory, so no directory is lost. A folder that
leads up may take the place of another one.
-/

namespace DiagnosticWatch.WorkspaceFinder

open DiagnosticWatch.Path (PlainName)

variable {f : WorkspaceFinder} {p : Project} {dir dir' : Path} {folders : List Manifest.Folder}

/-- The names that make the id of a directory. -/
def namesOf (f : WorkspaceFinder) (dir : Path) : List String :=
  Path.names ((dir.below? f.root).getD dir.location)

/-- A directory that the root leads down to, name by name. -/
def leadsDown (f : WorkspaceFinder) (dir : Path) : Bool :=
  (dir.below? f.root).any fun rest => !rest.contains .parent

theorem idOf_eq_idOfNames (f : WorkspaceFinder) (dir : Path) :
    f.idOf dir = idOfNames (f.namesOf dir) := by
  rw [idOf, namesOf]
  cases Path.names ((dir.below? f.root).getD dir.location) <;> rfl

theorem plain_namesOf (absolute : dir.isAbsolute = true) :
    ∀ name ∈ f.namesOf dir, PlainName name := by
  intro name h
  obtain ⟨c, hc, hname⟩ := List.mem_filterMap.1 h
  cases c with
  | root | current | parent => cases hname
  | normal name' =>
      obtain rfl := Option.some.inj hname
      refine Path.plainName_of_mem absolute ?_
      cases below : dir.below? f.root with
      | none => rwa [below] at hc
      | some rest =>
          rw [below] at hc
          rw [Path.location_of_below? below]
          exact List.mem_append_right _ hc

/-- Directories have the same id if the same names lead to them, whatever else does. -/
theorem idOf_eq_iff (absolute : dir.isAbsolute = true) (absolute' : dir'.isAbsolute = true) :
    f.idOf dir = f.idOf dir' ↔ f.namesOf dir = f.namesOf dir' := by
  rw [idOf_eq_idOfNames, idOf_eq_idOfNames]
  exact ⟨idOfNames_inj (plain_namesOf absolute) (plain_namesOf absolute'), congrArg idOfNames⟩

/-- The root leads down to a directory by the names of its id. -/
theorem leadsTo_of_leadsDown (root : f.root.isAbsolute = true) (absolute : dir.isAbsolute = true)
    (down : f.leadsDown dir = true) : f.LeadsTo (f.namesOf dir) dir := by
  obtain ⟨rest, below, level⟩ : ∃ rest, dir.below? f.root = some rest ∧ .parent ∉ rest := by
    simpa [leadsDown, Option.any_eq_true] using down
  have location := Path.location_of_below? below
  have named : (Path.names rest).map .normal = rest := by
    refine Path.map_names fun c hc => ?_
    obtain rfl | ⟨name, here, -⟩ := Path.allowed_of_location absolute root location c hc
    · exact absurd hc level
    · exact ⟨name, here⟩
  refine ⟨absolute, ?_⟩
  rw [namesOf, below, Option.getD_some, named, location]

/-- A relative folder without `..` is one that the root leads down to. -/
theorem leadsDown_of_relative (root : f.root.text ≠ "") {folder : String}
    (relative : (⟨folder⟩ : Path).isAbsolute = false)
    (level : "..".toList ∉ Text.split '/' folder.toList) :
    f.leadsDown (f.root.join ⟨folder⟩) = true := by
  have location := Path.location_join_relative root relative
  rw [leadsDown, Path.below?_of_location location, Option.any_some, Bool.not_eq_true',
    ← Bool.not_eq_true, List.contains_iff_mem]
  intro up
  obtain ⟨part, hpart, component⟩ := List.mem_filterMap.1 up
  rw [Path.component?] at component
  split at component
  · cases component
  · split at component
    · rename_i same
      subst same
      exact level hpart
    · cases component

/-- Directories that the root leads down to are the same, in normal form, exactly if their ids
are. -/
theorem idOf_eq_iff_normalize (root : f.root.isAbsolute = true) (absolute : dir.isAbsolute = true)
    (absolute' : dir'.isAbsolute = true) (down : f.leadsDown dir = true)
    (down' : f.leadsDown dir' = true) :
    f.idOf dir = f.idOf dir' ↔ dir.normalize f.root = dir'.normalize f.root := by
  have here := leadsTo_of_leadsDown root absolute down
  have here' := leadsTo_of_leadsDown root absolute' down'
  rw [idOf_eq_iff absolute absolute']
  constructor
  · intro same
    rw [Path.normalize_of_isAbsolute absolute, Path.normalize_of_isAbsolute absolute',
      here.location, here'.location, same]
  · intro same
    have places := congrArg Path.location same
    rw [Path.location_normalize absolute here.location,
      Path.location_normalize absolute' here'.location] at places
    exact List.map_injective_iff.2 (fun _ _ => Component.normal.inj)
      (List.append_cancel_left places)

/-- The directory of a folder that a manifest lists. -/
def folderPath (f : WorkspaceFinder) (entry : Manifest.Folder) : Path :=
  f.root.join ⟨entry.folder⟩

def isConfigured (f : WorkspaceFinder) (entry : Manifest.Folder) : Bool :=
  f.tree.isFile ((f.folderPath entry).join ⟨projectConfigFile⟩)

/-- The project in a folder that a manifest lists. -/
def projectIn? (f : WorkspaceFinder) (entry : Manifest.Folder) : Option Project :=
  f.projectAt? (f.folderPath entry) (some entry.name)

theorem of_projectIn? {entry : Manifest.Folder} (h : f.projectIn? entry = some p) :
    p.id = f.idOf (f.folderPath entry) ∧ p.root = f.folderPath entry ∧
      f.isConfigured entry = true := by
  simp only [projectIn?, projectAt?] at h
  split at h
  · rename_i configured
    obtain rfl := Option.some.inj h
    exact ⟨rfl, rfl, configured⟩
  · cases h

theorem exists_projectIn? {entry : Manifest.Folder} (configured : f.isConfigured entry = true) :
    ∃ p, f.projectIn? entry = some p := by
  rw [isConfigured] at configured
  simp only [projectIn?, projectAt?]
  rw [if_pos configured]
  exact ⟨_, rfl⟩

/-- Every listed project is that of a folder. -/
theorem exists_folder_of_mem_inFolders (h : p ∈ f.inFolders folders) :
    ∃ entry ∈ folders, f.projectIn? entry = some p :=
  List.mem_filterMap.1 (mem_of_mem_sorted h)

/-- Every folder with a configuration has its id listed. -/
theorem exists_mem_inFolders {entry : Manifest.Folder} (h : entry ∈ folders)
    (configured : f.isConfigured entry = true) :
    ∃ p ∈ f.inFolders folders, p.id = f.idOf (f.folderPath entry) := by
  obtain ⟨q, hq⟩ := exists_projectIn? configured
  obtain ⟨p, hp, same⟩ := exists_mem_sorted (List.mem_filterMap.2 ⟨entry, h, hq⟩)
  exact ⟨p, hp, same.trans (of_projectIn? hq).1⟩

/-- What becomes of the folders that a manifest lists. -/
structure ListsFolders (f : WorkspaceFinder) (folders : List Manifest.Folder) : Prop where
  ascending : (f.inFolders folders).Pairwise fun p q => p.id < q.id
  /-- Of the projects with one id the last one is listed. -/
  last : ∀ p, p ∈ f.inFolders folders ↔
    (folders.filterMap f.projectIn?).reverse.find? (fun q => q.id = p.id) = some p
  /-- Folders share an id if their names are the same, whatever `..` is among them. -/
  shared : ∀ a b, f.idOf (f.folderPath a) = f.idOf (f.folderPath b) ↔
    f.namesOf (f.folderPath a) = f.namesOf (f.folderPath b)
  /-- If they lead down, they share an id only if they lead to the same directory. -/
  merged : ∀ a b, f.leadsDown (f.folderPath a) = true → f.leadsDown (f.folderPath b) = true →
    (f.idOf (f.folderPath a) = f.idOf (f.folderPath b) ↔
      (f.folderPath a).normalize f.root = (f.folderPath b).normalize f.root)
  /-- So one of them never takes the place of another one. -/
  kept : ∀ entry ∈ folders, f.isConfigured entry = true →
    ∃ p ∈ f.inFolders folders, p.id = f.idOf (f.folderPath entry) ∧
      (f.leadsDown (f.folderPath entry) = true → f.leadsDown p.root = true →
        p.root.normalize f.root = (f.folderPath entry).normalize f.root)

theorem listsFolders (root : f.root.isAbsolute = true) (folders : List Manifest.Folder) :
    f.ListsFolders folders := by
  have absolute (entry : Manifest.Folder) : (f.folderPath entry).isAbsolute = true :=
    Path.isAbsolute_join root _
  have merged (a b : Manifest.Folder) (down : f.leadsDown (f.folderPath a) = true)
      (down' : f.leadsDown (f.folderPath b) = true) :=
    idOf_eq_iff_normalize root (absolute a) (absolute b) down down'
  refine ⟨ascending_sorted _, fun p => mem_sorted_iff, ?_, merged, ?_⟩
  · intro a b
    exact idOf_eq_iff (absolute a) (absolute b)
  · intro entry h configured
    obtain ⟨p, hp, same⟩ := exists_mem_inFolders h configured
    refine ⟨p, hp, same, fun down down' => ?_⟩
    obtain ⟨other, -, hother⟩ := exists_folder_of_mem_inFolders hp
    obtain ⟨id, place, -⟩ := of_projectIn? hother
    rw [place] at down' ⊢
    exact (merged other entry down' down).1 (id.symm.trans same)

theorem readText_of_text? {file text : String} (read : f.text? file = some text) :
    f.tree.readText (f.root.join ⟨file⟩) = .ok text := by
  rw [text?] at read
  cases h : f.tree.readText (f.root.join ⟨file⟩) with
  | error e => simp [h, Except.toOption] at read
  | ok text' => simpa [h, Except.toOption] using read

/-- A root below which a text can be read is absolute. -/
theorem isAbsolute_of_text? {file text : String} (read : f.text? file = some text)
    (free : '/' ∉ file.toList) : f.root.isAbsolute = true :=
  Path.isAbsolute_of_join (Path.isAbsolute_of_not_mem free)
    (FileTree.isAbsolute_of_readText (readText_of_text? read))

/-- A list of folders that can be read is a declaration. Its projects are in the order of their ids,
and of the folders that share an id the last one is listed. Relative folders without `..` lead down;
if all folders that have a configuration do so, each of them is listed, and only once. -/
theorem folders_listed {text : String} (read : f.text? "rush.json" = some text)
    (parsed : Manifest.folders? text = some folders) :
    (.rush, .projects (f.inFolders folders)) ∈ f.declarations ∧ f.ListsFolders folders ∧
      (∀ folder : String, (⟨folder⟩ : Path).isAbsolute = false →
        "..".toList ∉ Text.split '/' folder.toList →
          f.leadsDown (f.root.join ⟨folder⟩) = true) ∧
      ((∀ entry ∈ folders, f.isConfigured entry = true → f.leadsDown (f.folderPath entry) = true) →
        ∀ entry ∈ folders, f.isConfigured entry = true →
          ∃ p ∈ f.inFolders folders,
            p.root.normalize f.root = (f.folderPath entry).normalize f.root) := by
  have root : f.root.isAbsolute = true := isAbsolute_of_text? read (by decide)
  have lists := listsFolders root folders
  have declared : f.declared "rush.json" (fun text => (Manifest.folders? text).map fun folders =>
      .projects (f.inFolders folders)) = .projects (f.inFolders folders) := by
    have found := readText_of_text? read
    simp only [WorkspaceFinder.declared, found, FileTree.isFile_of_readText found, parsed,
      Option.map_some, Option.getD_some]
    rfl
  refine ⟨?_, lists, ?_, ?_⟩
  · simp only [declarations, List.mem_cons]
    exact .inr (.inr (.inl (Prod.ext rfl declared.symm)))
  · intro folder relative level
    refine leadsDown_of_relative (fun empty => ?_) relative level
    simp [Path.isAbsolute, empty] at root
  · intro down entry h configured
    obtain ⟨p, hp, -, same⟩ := lists.kept entry h configured
    obtain ⟨other, hmem, hother⟩ := exists_folder_of_mem_inFolders hp
    obtain ⟨-, place, configured'⟩ := of_projectIn? hother
    refine ⟨p, hp, same (down entry h configured) ?_⟩
    rw [place]
    exact down other hmem configured'

/-- Two directories called `lib`, one below `packages` and one next to it, and a list of folders. -/
def twoLibs (list : String) : WorkspaceFinder where
  root := ⟨"/w"⟩
  tree :=
    ⟨.ofList
      [(["w"], .directory), (["w", "lib"], .directory), (["w", "packages"], .directory),
        (["w", "packages", "lib"], .directory),
        (["w", "lib", "tsconfig.json"], .file "\x7b\x7d".toUTF8 false),
        (["w", "packages", "lib", "tsconfig.json"], .file "\x7b\x7d".toUTF8 false),
        (["w", "rush.json"], .file list.toUTF8 false)]⟩

/-- Two folders with one directory, one with another directory, and a comment behind the list. -/
def leadsStraight : String :=
  "\x7b\"projects\":[\x7b\"packageName\":\"a\",\"projectFolder\":\"lib\"\x7d," ++
    "\x7b\"packageName\":\"b\",\"projectFolder\":\"packages/lib\"\x7d," ++
      "\x7b\"packageName\":\"c\",\"projectFolder\":\"./lib/\"\x7d]\x7d//"

/-- A folder and, behind it, one that leads up on its way. -/
def leadsUp : String :=
  "\x7b\"projects\":[\x7b\"packageName\":\"a\",\"projectFolder\":\"packages/lib\"\x7d," ++
    "\x7b\"packageName\":\"b\",\"projectFolder\":\"packages/../lib\"\x7d]\x7d"

/-- What the two lists say, and what becomes of them. -/
theorem read_lists :
    ((twoLibs leadsStraight).text? "rush.json" = some leadsStraight ∧
      Manifest.folders? leadsStraight =
        some [⟨"a", "lib"⟩, ⟨"b", "packages/lib"⟩, ⟨"c", "./lib/"⟩] ∧
      (twoLibs leadsStraight).inFolders [⟨"a", "lib"⟩, ⟨"b", "packages/lib"⟩, ⟨"c", "./lib/"⟩] =
        [⟨"lib", "c", ⟨"/w/./lib/"⟩, ⟨"/w/./lib/tsconfig.json"⟩⟩,
          ⟨"packages/lib", "b", ⟨"/w/packages/lib"⟩, ⟨"/w/packages/lib/tsconfig.json"⟩⟩]) ∧
    (twoLibs leadsUp).text? "rush.json" = some leadsUp ∧
      Manifest.folders? leadsUp = some [⟨"a", "packages/lib"⟩, ⟨"b", "packages/../lib"⟩] ∧
      (twoLibs leadsUp).inFolders [⟨"a", "packages/lib"⟩, ⟨"b", "packages/../lib"⟩] =
        [⟨"packages/lib", "b", ⟨"/w/packages/../lib"⟩, ⟨"/w/packages/../lib/tsconfig.json"⟩⟩] := by
  decide +kernel

/-- All three folders are listed: two of them by the project of the later one, whose directory is
that of both. -/
theorem folders_listed_leadsStraight :
    let f := twoLibs leadsStraight
    let folders : List Manifest.Folder := [⟨"a", "lib"⟩, ⟨"b", "packages/lib"⟩, ⟨"c", "./lib/"⟩]
    f.text? "rush.json" = some leadsStraight ∧ Manifest.folders? leadsStraight = some folders ∧
      (∀ entry ∈ folders, f.isConfigured entry = true ∧ f.leadsDown (f.folderPath entry) = true) ∧
      f.ListsFolders folders ∧
      (f.inFolders folders).map (fun p => (p.id, p.name)) = [("lib", "c"), ("packages/lib", "b")] ∧
      ∀ entry ∈ folders, ∃ p ∈ f.inFolders folders,
        p.root.normalize f.root = (f.folderPath entry).normalize f.root := by
  intro f folders
  obtain ⟨⟨read, parsed, listed⟩, -⟩ := read_lists
  have down : ∀ entry ∈ folders,
      f.isConfigured entry = true ∧ f.leadsDown (f.folderPath entry) = true := by decide +kernel
  obtain ⟨-, lists, -, complete⟩ := folders_listed read parsed
  refine ⟨read, parsed, down, lists, ?_, fun entry h => ?_⟩
  · rw [listed]
    rfl
  · exact complete (fun entry h _ => (down entry h).2) entry h (down entry h).1

/-- The id of a folder does not show that its path leads up. So the second folder takes the place of
the first one, which is another directory, has a configuration, and is not listed at all. -/
theorem folder_displaced :
    let f := twoLibs leadsUp
    let inner : Manifest.Folder := ⟨"a", "packages/lib"⟩
    let outer : Manifest.Folder := ⟨"b", "packages/../lib"⟩
    (f.text? "rush.json").bind Manifest.folders? = some [inner, outer] ∧
      f.isConfigured inner = true ∧ f.isConfigured outer = true ∧
      f.marked? .rush = some [⟨"packages/lib", "b", ⟨"/w/packages/../lib"⟩,
        ⟨"/w/packages/../lib/tsconfig.json"⟩⟩] ∧
      (f.folderPath inner).normalize f.root = ⟨"/w/packages/lib"⟩ ∧
      (f.folderPath outer).normalize f.root = ⟨"/w/lib"⟩ ∧
      ¬∃ p ∈ f.inFolders [inner, outer],
        p.root.normalize f.root = (f.folderPath inner).normalize f.root := by
  intro f inner outer
  obtain ⟨-, read, folders, listed⟩ := read_lists
  have parsed : (f.text? "rush.json").bind Manifest.folders? = some [inner, outer] := by
    rw [read, Option.bind_some, folders]
  have marked : f.marked? .rush = some (f.inFolders [inner, outer]) := by
    rw [marked?, parsed]
    rfl
  rw [marked, listed]
  refine ⟨parsed, ?_, ?_, rfl, ?_, ?_, ?_⟩ <;> decide

end DiagnosticWatch.WorkspaceFinder
