import DiagnosticWatch.Compiler.Install
import DiagnosticWatch.Proofs.FileTree.Lookup
import DiagnosticWatch.Proofs.Path.Ancestors

/-!
# The nearest compiler

On the way from a project up to the root of its workspace every directory is asked for a compiler,
the root last and nothing above it. So the compiler of a project is the one installed in the deepest
of these directories that has one, or the one of the system (`resolve_nearest`), and files elsewhere
make no difference.
-/

namespace DiagnosticWatch.Compiler

variable {tree other : FileTree} {root project dir dir' p q : Path} {c : Component}

/-- A directory between a project and the root of its workspace, or one of the two. -/
structure OnTheWay (root project dir : Path) : Prop where
  inside : dir.LiesIn root
  above : project.LiesIn dir

/-- A directory with a compiler, below which no other directory on the way has one. -/
structure IsNearest (tree : FileTree) (root project dir : Path) : Prop where
  onTheWay : OnTheWay root project dir
  installed : tree.isFile (installedIn dir) = true
  alone : ∀ deeper, OnTheWay dir project deeper → deeper.location ≠ dir.location →
    tree.isFile (installedIn deeper) = false

namespace OnTheWay

theorem self (inside : p.LiesIn root) : OnTheWay root p p :=
  ⟨inside, .of_same rfl⟩

theorem of_parent (h : OnTheWay root q dir) (hp : p.location = q.location ++ [c])
    (below : c ≠ .root) : OnTheWay root p dir :=
  ⟨h.inside, (Path.LiesIn.of_parent hp below).trans h.above⟩

/-- On the way from a path is the path itself, and what is on the way from its parent. -/
theorem same_or_parent (h : OnTheWay root p dir) (hp : p.location = q.location ++ [c]) :
    p.location = dir.location ∨ OnTheWay root q dir :=
  (h.above.same_or_parent hp).imp_right fun above => ⟨h.inside, above⟩

theorem same_of_root (h : OnTheWay root p dir) (here : p.location = root.location) :
    p.location = dir.location :=
  h.above.antisymm (h.inside.trans (.of_same here.symm))

end OnTheWay

/-- Whether a compiler is installed does not depend on how the directory is spelled. -/
theorem isFile_installedIn_congr (tree : FileTree) (same : dir.location = dir'.location) :
    tree.isFile (installedIn dir) = tree.isFile (installedIn dir') := by
  have modules : Path.PlainName "node_modules" := by decide
  have bin : Path.PlainName ".bin" := by decide
  refine tree.isFile_join_congr ?_ (by decide)
  rw [Path.location_join bin, Path.location_join modules, Path.location_join bin,
    Path.location_join modules, same]

theorem isNearest_self (inside : p.LiesIn root) (installed : tree.isFile (installedIn p) = true) :
    IsNearest tree root p p :=
  ⟨.self inside, installed, fun _ h apart => absurd (h.same_of_root rfl).symm apart⟩

/-- What is nearest to the parent is nearest to a path without a compiler. -/
theorem IsNearest.of_parent (h : IsNearest tree root q dir) (hp : p.location = q.location ++ [c])
    (below : c ≠ .root) (missing : tree.isFile (installedIn p) = false) :
    IsNearest tree root p dir := by
  refine ⟨h.onTheWay.of_parent hp below, h.installed, fun deeper between apart => ?_⟩
  obtain same | between := between.same_or_parent hp
  · rw [← isFile_installedIn_congr tree same, missing]
  · exact h.alone deeper between apart

/-- The search ends at the root of the workspace. -/
theorem nearest?_root (tree : FileTree) (here : p.location = root.location) :
    nearest? tree root p.ancestors =
      if tree.isFile (installedIn p) then some (installedIn p) else none := by
  obtain ⟨above, ancestors⟩ := p.exists_ancestors
  have same : p.same root = true := decide_eq_true here
  rw [ancestors, nearest?, if_pos same]

/-- Below the root of the workspace the search goes on with the parent. -/
theorem nearest?_parent (tree : FileTree) (parent : p.parent? = some q)
    (hp : p.location = q.location ++ [c]) (inside : q.LiesIn root) :
    nearest? tree root p.ancestors =
      if tree.isFile (installedIn p) then some (installedIn p)
      else nearest? tree root q.ancestors := by
  have apart : ¬p.same root = true := by
    intro same
    have length := congrArg List.length (of_decide_eq_true same)
    rw [hp, List.length_append, List.length_singleton] at length
    have := inside.length_le
    omega
  rw [Path.ancestors_of_parent parent hp, nearest?, if_neg apart]

/-- The search finds the nearest compiler, unless there is none on the way. -/
theorem exists_nearest (tree : FileTree) (below : project.LiesIn root) :
    (∃ dir ∈ project.ancestors, IsNearest tree root project dir ∧
        nearest? tree root project.ancestors = some (installedIn dir)) ∨
      (∀ dir, OnTheWay root project dir → tree.isFile (installedIn dir) = false) ∧
        nearest? tree root project.ancestors = none := by
  induction below using Path.LiesIn.climb with
  | here p h =>
      rw [nearest?_root tree h]
      by_cases installed : tree.isFile (installedIn p) = true
      · have nearest : IsNearest tree root p p := isNearest_self (.of_same h) installed
        exact .inl ⟨p, p.mem_ancestors_self, nearest, if_pos installed⟩
      · refine .inr ⟨fun dir between => ?_, if_neg installed⟩
        rw [← isFile_installedIn_congr tree (between.same_of_root h)]
        simpa using installed
  | up p q c parent hp below inside ih =>
      rw [nearest?_parent tree parent hp inside, Path.ancestors_of_parent parent hp]
      by_cases installed : tree.isFile (installedIn p) = true
      · have lies : p.LiesIn root := (Path.LiesIn.of_parent hp below).trans inside
        exact .inl ⟨p, List.mem_cons_self, isNearest_self lies installed, if_pos installed⟩
      · have missing : tree.isFile (installedIn p) = false := by simpa using installed
        rw [if_neg installed]
        obtain ⟨dir, hdir, nearest, found⟩ | ⟨nowhere, found⟩ := ih
        · exact .inl ⟨dir, List.mem_cons_of_mem _ hdir, nearest.of_parent hp below missing, found⟩
        · refine .inr ⟨fun dir between => ?_, found⟩
          obtain same | between := between.same_or_parent hp
          · rw [← isFile_installedIn_congr tree same, missing]
          · exact nowhere dir between

/-- The search looks for compilers on the way only. -/
theorem nearest?_congr (below : project.LiesIn root)
    (agree : ∀ dir, OnTheWay root project dir →
      other.isFile (installedIn dir) = tree.isFile (installedIn dir)) :
    nearest? other root project.ancestors = nearest? tree root project.ancestors := by
  induction below using Path.LiesIn.climb with
  | here p h => rw [nearest?_root other h, nearest?_root tree h, agree p (.self (.of_same h))]
  | up p q c parent hp below inside ih =>
      have lies : p.LiesIn root := (Path.LiesIn.of_parent hp below).trans inside
      rw [nearest?_parent other parent hp inside, nearest?_parent tree parent hp inside,
        agree p (.self lies), ih fun dir between => agree dir (between.of_parent hp below)]

/-- The compiler of a project is the one in the deepest directory, from the project up to the root
of the workspace, that has one installed, and the one of the system if none has. No other file of
the tree makes a difference. -/
theorem resolve_nearest (below : project.LiesIn root) (tree : FileTree) :
    ((∃ dir ∈ project.ancestors, IsNearest tree root project dir ∧
          resolve tree root project = installedIn dir) ∨
        (∀ dir, OnTheWay root project dir → tree.isFile (installedIn dir) = false) ∧
          resolve tree root project = programName) ∧
      ∀ other : FileTree,
        (∀ dir, OnTheWay root project dir →
          other.isFile (installedIn dir) = tree.isFile (installedIn dir)) →
        resolve other root project = resolve tree root project := by
  refine ⟨?_, fun other agree => ?_⟩
  · rw [resolve]
    obtain ⟨dir, hdir, nearest, found⟩ | ⟨nowhere, found⟩ := exists_nearest tree below
    · exact .inl ⟨dir, hdir, nearest, by rw [found, Option.getD_some]⟩
    · exact .inr ⟨nowhere, by rw [found, Option.getD_none]⟩
  · rw [resolve, resolve, nearest?_congr below agree]

/-- A tree with compilers in some directories, and below `packages` a directory in the place of
one. -/
def compilersIn (dirs : List (List String)) : FileTree :=
  dirs.foldl (fun tree dir => tree.addFile (dir ++ ["node_modules", ".bin", "tsc"]) .empty true)
    (FileTree.empty.addDirectory ["w", "packages", "node_modules", ".bin", "tsc"])

/-- The compiler in the root of a workspace is the one of a project two levels below, whether or not
another one is installed above the workspace. -/
theorem resolve_nearest_atRoot :
    let root : Path := ⟨"/w/"⟩
    let project : Path := ⟨"/w//packages/./web/"⟩
    let within := compilersIn [["w"]]
    let above := compilersIn [[], ["w"]]
    project.LiesIn root ∧ above.isFile (installedIn ⟨"/"⟩) = true ∧
      resolve above root project = ⟨"/w/node_modules/.bin/tsc"⟩ ∧
        resolve within root project = resolve above root project := by
  intro root project within above
  have below : project.LiesIn root := ⟨[.normal "packages", .normal "web"], by decide, by decide⟩
  have ancestors : project.ancestors = [project, ⟨"/w//packages"⟩, ⟨"/w"⟩, ⟨"/"⟩] := by
    decide +kernel
  have inWorkspace : ∀ dir ∈ [project, ⟨"/w//packages"⟩, ⟨"/w"⟩, ⟨"/"⟩],
      root.location.length ≤ dir.location.length →
        (above.isFile (installedIn dir) = true → installedIn dir = ⟨"/w/node_modules/.bin/tsc"⟩) ∧
          within.isFile (installedIn dir) = above.isFile (installedIn dir) := by
    decide +kernel
  rw [← ancestors] at inWorkspace
  obtain ⟨found, elsewhere⟩ := resolve_nearest below above
  refine ⟨below, by decide +kernel, ?_, elsewhere within fun dir between => ?_⟩
  · obtain ⟨dir, hdir, nearest, resolved⟩ | ⟨nowhere, -⟩ := found
    · rw [resolved]
      exact (inWorkspace dir hdir nearest.onTheWay.inside.length_le).1 nearest.installed
    · have missing := nowhere root ⟨.of_same rfl, below⟩
      have installed : above.isFile (installedIn root) = true := by decide +kernel
      rw [installed] at missing
      contradiction
  · obtain ⟨q, hq, same⟩ := between.above.exists_mem_ancestors
    rw [← isFile_installedIn_congr within same, ← isFile_installedIn_congr above same]
    exact (inWorkspace q hq (same ▸ between.inside.length_le)).2

end DiagnosticWatch.Compiler
