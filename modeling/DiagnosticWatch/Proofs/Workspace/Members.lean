import DiagnosticWatch.Workspace.Detect
import DiagnosticWatch.Proofs.Workspace.Patterns
import Mathlib.Data.List.Basic

/-!
# The packages that patterns lead to

Projects in order have distinct ids, and of those with one id one stays. A manifest makes a member
if its directory is kept, its package can be read and its configuration is there. Of what is in the
files of a tree, only the names of the packages matter.
-/

namespace DiagnosticWatch.WorkspaceFinder

open FileTree (SameShape)

variable {f : WorkspaceFinder} {p : Project} {ps : List Project}

theorem mem_of_mem_sorted (h : p ∈ sorted ps) : p ∈ ps := by
  obtain ⟨e, he, rfl⟩ := List.mem_map.1 h
  obtain ⟨q, hq, rfl⟩ := List.mem_map.1 (Table.mem_of_mem_ofList he)
  exact hq

/-- A table of projects by their ids has every project under its own id. -/
theorem fst_of_mem_ofList {e : String × Project}
    (h : e ∈ (Table.ofList (ps.map fun p => (p.id, p))).entries) : e.1 = e.2.id := by
  obtain ⟨q, -, rfl⟩ := List.mem_map.1 (Table.mem_of_mem_ofList h)
  rfl

/-- Of the projects with one id one stays. -/
theorem exists_mem_sorted (h : p ∈ ps) : ∃ q ∈ sorted ps, q.id = p.id := by
  have key := Table.mem_keys_ofList (List.mem_map_of_mem (f := fun p : Project => (p.id, p)) h)
  obtain ⟨e, he, hid⟩ := List.mem_map.1 key
  exact ⟨e.2, List.mem_map_of_mem he, (fst_of_mem_ofList he).symm.trans hid⟩

/-- Of the projects with one id the last one stays. -/
theorem mem_sorted_iff :
    p ∈ sorted ps ↔ ps.reverse.find? (fun q => q.id = p.id) = some p := by
  have looked : (Table.ofList (ps.map fun p => (p.id, p))).get? p.id =
      ps.reverse.find? fun q => q.id = p.id := by
    rw [Table.get?_ofList, ← List.map_reverse, List.find?_map, Option.map_map]
    exact Option.map_id'
  rw [← looked]
  constructor
  · intro h
    obtain ⟨e, he, rfl⟩ := List.mem_map.1 h
    rw [← fst_of_mem_ofList he]
    exact Table.get?_eq_some_iff.2 he
  · intro h
    exact List.mem_map_of_mem (Table.get?_eq_some_iff.1 h)

theorem ascending_sorted (ps : List Project) :
    (sorted ps).Pairwise fun p q => p.id < q.id := by
  refine List.pairwise_map.2 ((Table.ofList _).ascending.imp_of_mem fun ha hb h => ?_)
  rw [fst_of_mem_ofList ha, fst_of_mem_ofList hb] at h
  exact compareOfLessAndEq_eq_lt.1 h

/-- A project has its configuration in its root. -/
theorem config_of_projectAt? {dir : Path} {declared : Option String}
    (h : f.projectAt? dir declared = some p) :
    p.configPath = p.root.join ⟨projectConfigFile⟩ ∧ f.tree.isFile p.configPath = true := by
  simp only [projectAt?] at h
  split at h
  · rename_i found
    obtain rfl := Option.some.inj h
    exact ⟨rfl, found⟩
  · cases h

/-- What makes a member of the package with a manifest. Of the package only the name is asked
for. -/
theorem member?_eq_some_iff {exclusions : List MemberPattern} {m : Path} :
    f.member? exclusions m = some p ↔
      ∃ dir declared, m.parent? = some dir ∧ isExcluded exclusions (f.idOf dir) = false ∧
        (f.package? m).map (·.name) = some declared ∧ f.projectAt? dir declared = some p := by
  rw [member?]
  cases m.parent? with
  | none => simp
  | some dir =>
      cases excluded : isExcluded exclusions (f.idOf dir) with
      | true => simp [excluded]
      | false => cases f.package? m <;> simp [excluded]

theorem exists_projectAt?_of_mem_members {patterns : List String} (h : p ∈ f.members patterns) :
    ∃ dir declared, f.projectAt? dir declared = some p := by
  obtain ⟨m, -, h⟩ := List.mem_filterMap.1 (mem_of_mem_sorted h)
  obtain ⟨dir, declared, -, -, -, h⟩ := member?_eq_some_iff.1 h
  exact ⟨dir, declared, h⟩

theorem plain_packageManifestFile : Path.PlainName packageManifestFile :=
  ⟨by decide, by decide⟩

theorem parse?_packageManifestFile :
    MemberPattern.parse? packageManifestFile.toList =
      some (packageManifestFile.toList.map .char) := by
  decide

/-- What patterns lead to are manifests of packages. -/
theorem fileName?_of_mem_manifestsOf {pattern : List Char} {m : Path}
    (h : m ∈ f.manifestsOf pattern) : m.fileName? = some packageManifestFile :=
  MemberPattern.fileName?_of_mem_expand plain_packageManifestFile parse?_packageManifestFile h

section Shape

variable {g : WorkspaceFinder} (root : f.root = g.root) (shape : SameShape f.tree g.tree)

include root

theorem idOf_eq : f.idOf = g.idOf := by
  funext dir
  rw [idOf, idOf, root]

include shape

theorem manifestsOf_eq : f.manifestsOf = g.manifestsOf := by
  funext pattern
  rw [manifestsOf, manifestsOf, root, MemberPattern.expand_eq_of_sameShape shape]

theorem projectAt?_eq : f.projectAt? = g.projectAt? := by
  funext dir declared
  simp only [projectAt?, shape.isFile_eq, idOf_eq root]

/-- Patterns have the same members in two trees whose packages have the same names. -/
theorem members_eq (names : ∀ m : Path, m.fileName? = some packageManifestFile →
    (f.package? m).map (·.name) = (g.package? m).map (·.name)) : f.members = g.members := by
  funext patterns
  rw [members, members, manifestsOf_eq root shape]
  refine congrArg sorted (List.filterMap_congr fun m hm => ?_)
  obtain ⟨pattern, -, hm⟩ := List.mem_flatMap.1 hm
  refine Option.ext fun p => ?_
  rw [member?_eq_some_iff, member?_eq_some_iff,
    names m (fileName?_of_mem_manifestsOf hm), idOf_eq root, projectAt?_eq root shape]

end Shape

end DiagnosticWatch.WorkspaceFinder
