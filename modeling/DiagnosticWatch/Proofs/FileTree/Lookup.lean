import DiagnosticWatch.FileTree
import DiagnosticWatch.Proofs.Path.Join
import Mathlib.Data.List.Induction

/-!
# Where paths end

A path is looked up part by part. A part that names nothing asks for a directory to stand on, and so
does the part behind it, so that a path that ends in a name is looked up by its components alone.

Trees of one shape have files and directories at the same places. Every path ends at the same place
in all of them, so what is in a file can only be noticed by reading it.
-/

namespace DiagnosticWatch.FileTree

open DiagnosticWatch.Path (PlainName component?)

variable {s t : FileTree} {p q : Path} {names : List String} {name : String}

theorem exists_of_bind_ok {x : Except ε α} {f : α → Except ε β} {b : β} (h : x >>= f = .ok b) :
    ∃ a, x = .ok a ∧ f a = .ok b := by
  cases x with
  | error e => cases h
  | ok a => exact ⟨a, rfl, h⟩

/-- Where a component leads. -/
def enter (names : List String) : Component → List String
  | .root | .current => names
  | .parent => names.dropLast
  | .normal name => names ++ [name]

/-- Why a walk cannot go on from some place. -/
def obstacle (t : FileTree) (names : List String) : ReadError :=
  if (t.node? names).isSome then .notDirectory else .notFound

def walkComponent (t : FileTree) (names : List String) (c : Component) :
    Except ReadError (List String) :=
  if t.isDirectoryAt names then .ok (enter names c) else .error (t.obstacle names)

theorem walkPart_eq (t : FileTree) (names : List String) (part : List Char) :
    t.walkPart names part =
      if t.isDirectoryAt names then .ok ((component? part).elim names (enter names))
      else .error (t.obstacle names) := by
  rw [walkPart, component?, obstacle]
  by_cases stands : t.isDirectoryAt names = true
  · rw [stands, Bool.not_true, if_neg Bool.false_ne_true, if_pos rfl]
    by_cases silent : part = [] ∨ part = ['.']
    · simp [silent]
    · by_cases up : part = ['.', '.']
      · simp [up, enter]
      · simp [silent, up, enter]
  · rw [Bool.not_eq_true _ |>.mp stands, Bool.not_false, if_pos rfl, if_neg Bool.false_ne_true]
    split <;> rfl

/-- Parts that end in one that is not silent are walked by their components. -/
theorem foldlM_walkPart (t : FileTree) {parts : List (List Char)} {last : List Char}
    (ends : parts.getLast? = some last) (speaks : component? last ≠ none) (names : List String) :
    parts.foldlM t.walkPart names = (parts.filterMap component?).foldlM t.walkComponent names := by
  induction parts generalizing names with
  | nil => cases ends
  | cons part parts ih =>
      rw [List.foldlM_cons, walkPart_eq]
      cases hpart : component? part with
      | some c =>
          rw [List.filterMap_cons_some hpart, List.foldlM_cons, walkComponent]
          cases parts with
          | nil => rfl
          | cons next parts =>
              rw [List.getLast?_cons_cons] at ends
              split
              · exact ih ends _
              · rfl
      | none =>
          rw [List.filterMap_cons_none hpart]
          cases parts with
          | nil => exact absurd (Option.some.inj ends ▸ hpart) speaks
          | cons next parts =>
              rw [List.getLast?_cons_cons] at ends
              split
              · exact ih ends _
              · rename_i stuck
                -- The next part that is not silent meets the same obstacle.
                obtain ⟨c, rest, hrest⟩ : ∃ c rest,
                    (next :: parts).filterMap component? = c :: rest := by
                  refine List.exists_cons_of_ne_nil fun empty => speaks ?_
                  exact List.filterMap_eq_nil_iff.1 empty last (List.mem_of_getLast? ends)
                rw [hrest, List.foldlM_cons, walkComponent, if_neg stuck]
                rfl

def locateBy (t : FileTree) (location : Location) : Except ReadError (List String) := do
  let names ← location.foldlM t.walkComponent []
  if (t.node? names).isSome then .ok names else .error .notFound

/-- A path that ends in a name is looked up by its components. -/
theorem locate_join (t : FileTree) (absolute : p.isAbsolute = true) (plain : PlainName name) :
    t.locate (p.join ⟨name⟩) = t.locateBy (p.location.tail ++ [.normal name]) := by
  obtain ⟨rest, parts, htext, hparts, hlocation⟩ := Path.exists_parts_join absolute plain
  have speaks : component? name.toList ≠ none := by simp [plain.component]
  rw [locate, htext, locateBy]
  simp only [hparts]
  rw [foldlM_walkPart t List.getLast?_concat speaks, List.filterMap_append, hlocation,
    List.tail_cons, List.filterMap_cons_some plain.component]
  rfl

theorem getLast?_of_foldlM_walkPart {parts : List (List Char)} {start : List String}
    (h : parts.foldlM t.walkPart start = .ok names)
    (last : (parts.filterMap component?).getLast? = some (.normal name)) :
    names.getLast? = some name := by
  induction parts using List.reverseRecOn generalizing names with
  | nil => cases last
  | append_singleton parts part ih =>
      rw [List.foldlM_append] at h
      obtain ⟨place, hfront, h⟩ := exists_of_bind_ok h
      rw [List.foldlM_cons] at h
      obtain ⟨names', step, h⟩ := exists_of_bind_ok h
      obtain rfl : names' = names := Except.ok.inj h
      rw [walkPart_eq] at step
      split at step
      · rw [List.filterMap_append] at last
        cases hpart : component? part with
        | none =>
            rw [hpart] at step
            rw [List.filterMap_cons_none hpart, List.filterMap_nil, List.append_nil] at last
            obtain rfl : place = names' := Except.ok.inj step
            exact ih hfront last
        | some c =>
            rw [hpart] at step
            rw [List.filterMap_cons_some hpart, List.filterMap_nil, List.getLast?_concat] at last
            obtain rfl := Option.some.inj last
            rw [← Except.ok.inj step]
            exact List.getLast?_concat
      · cases step

/-- A path that ends in a name leads to a place of that name. -/
theorem getLast?_of_locate (h : t.locate p = .ok names) (last : p.fileName? = some name) :
    names.getLast? = some name := by
  rw [locate] at h
  rw [Path.fileName?, Path.location] at last
  split at h
  · rename_i rest htext
    rw [htext, Path.componentsOf] at last
    obtain ⟨place, hwalk, h⟩ := exists_of_bind_ok h
    split at h
    · obtain rfl : place = names := Except.ok.inj h
      refine getLast?_of_foldlM_walkPart hwalk ?_
      cases hparts : (Text.split '/' rest).filterMap component? with
      | nil =>
          rw [hparts] at last
          cases last
      | cons c cs =>
          rw [hparts, List.getLast?_cons_cons] at last
          split at last
          · rename_i n hlast
            rw [hlast, Option.some.inj last]
          · cases last
    · cases h
  · cases h

def textOf : Option Node → Except ReadError String
  | some (.file content _) =>
    match String.fromUTF8? content with
    | some text => .ok text
    | none => .error .notUtf8
  | some .directory => .error .isDirectory
  | none => .error .notFound

theorem readText_of_locate (place : t.locate p = .ok names) :
    t.readText p = textOf (t.node? names) := by
  rw [readText, place]
  rfl

theorem readText_of_error {e : ReadError} (nowhere : t.locate p = .error e) :
    t.readText p = .error e := by
  rw [readText, nowhere]
  rfl

/-- A text that can be read is the text of a file. -/
theorem isFile_of_readText {text : String} (h : t.readText p = .ok text) : t.isFile p = true := by
  cases place : t.locate p with
  | error e =>
      rw [readText_of_error place] at h
      cases h
  | ok names =>
      rw [readText_of_locate place] at h
      simp only [isFile, get?, place]
      cases hnode : t.node? names with
      | none =>
          rw [hnode] at h
          cases h
      | some node =>
          rw [hnode] at h
          cases node with
          | directory => cases h
          | file content executable => rfl

/-- Only absolute paths lead anywhere. -/
theorem locate_of_relative (t : FileTree) (relative : p.isAbsolute = false) :
    t.locate p = .error .notFound := by
  rw [locate]
  split
  · rename_i chars
    rw [Path.isAbsolute, chars] at relative
    cases relative
  · rfl

theorem isAbsolute_of_readText {text : String} (h : t.readText p = .ok text) :
    p.isAbsolute = true := by
  by_contra relative
  rw [readText_of_error (t.locate_of_relative (by simpa using relative))] at h
  cases h

/-- What a path that ends in a name leads to does not depend on how the path is spelled. -/
theorem locate_join_congr (t : FileTree) (same : p.location = q.location) (plain : PlainName name) :
    t.locate (p.join ⟨name⟩) = t.locate (q.join ⟨name⟩) := by
  by_cases absolute : p.isAbsolute = true
  · rw [locate_join t absolute plain, locate_join t (Path.isAbsolute_congr same ▸ absolute) plain,
      same]
  · have joined : (p.join ⟨name⟩).location = (q.join ⟨name⟩).location := by
      rw [Path.location_join plain, Path.location_join plain, same]
    have relative : (p.join ⟨name⟩).isAbsolute = false := by
      apply Bool.eq_false_iff.2
      intro h
      exact absolute (Path.isAbsolute_of_join (Path.isAbsolute_of_not_mem plain.free) h)
    rw [t.locate_of_relative relative,
      t.locate_of_relative (Path.isAbsolute_congr joined ▸ relative)]

/-- Whether a file is there does not depend on how the path to it is spelled. -/
theorem isFile_join_congr (t : FileTree) (same : p.location = q.location) (plain : PlainName name) :
    t.isFile (p.join ⟨name⟩) = t.isFile (q.join ⟨name⟩) := by
  rw [isFile, isFile, get?, get?, t.locate_join_congr same plain]

/-- Every place in the tree is given by names. -/
def HasNames (t : FileTree) : Prop :=
  ∀ place ∈ t.nodes.keys, ∀ name ∈ place, PlainName name

instance (t : FileTree) : Decidable t.HasNames :=
  inferInstanceAs (Decidable (∀ place ∈ t.nodes.keys, ∀ name ∈ place, PlainName name))

theorem exists_name_of_mem_entries (named : t.HasNames) (h : q ∈ t.entries p) :
    ∃ name, PlainName name ∧ q = p.join ⟨name⟩ := by
  rw [entries] at h
  split at h
  · cases h
  · obtain ⟨place, hplace, h⟩ := List.mem_filterMap.1 h
    split at h
    · rename_i name hname
      refine ⟨name, named place hplace name ?_, (Option.some.inj h).symm⟩
      rw [Text.afterPrefix?_eq_some_iff.1 hname]
      exact List.mem_append_right _ List.mem_cons_self
    · cases h

theorem exists_names_of_mem_entriesBelow (named : t.HasNames) (h : q ∈ t.entriesBelow p) :
    ∃ names ≠ [], (∀ name ∈ names, PlainName name) ∧ q = p.joinAll names := by
  rw [entriesBelow] at h
  split at h
  · cases h
  · obtain ⟨place, hplace, h⟩ := List.mem_filterMap.1 h
    split at h
    · rename_i name below hbelow
      refine ⟨name :: below, List.cons_ne_nil _ _, fun n hn => named place hplace n ?_,
        (Option.some.inj h).symm⟩
      rw [Text.afterPrefix?_eq_some_iff.1 hbelow]
      exact List.mem_append_right _ hn
    · cases h

/-- Trees that have directories at the same places, and files at the same places. -/
structure SameShape (s t : FileTree) : Prop where
  keys : s.nodes.keys = t.nodes.keys
  directories : ∀ names, s.isDirectoryAt names = t.isDirectoryAt names

/-- The tree with another content in one of its files. -/
def rewrite (t : FileTree) (names : List String) (content : ByteArray) : FileTree :=
  ⟨t.nodes.modify names fun
    | .file _ executable => .file content executable
    | .directory => .directory⟩

theorem node?_rewrite_of_ne {place : List String} (h : names ≠ place) (content : ByteArray) :
    (t.rewrite place content).node? names = t.node? names := by
  rw [node?, node?, rewrite, Table.get?_modify, if_neg h]

theorem sameShape_rewrite (t : FileTree) (place : List String) (content : ByteArray) :
    SameShape t (t.rewrite place content) where
  keys := (Table.keys_modify ..).symm
  directories names := by
    by_cases here : names = place
    · subst here
      rw [isDirectoryAt, isDirectoryAt, node?, node?, rewrite, Table.get?_modify, if_pos rfl]
      by_cases root : names.isEmpty = true
      · rw [if_pos root, if_pos root]
      · rw [if_neg root, if_neg root]
        rcases t.nodes.get? names with _ | _ | _ <;> rfl
    · rw [isDirectoryAt, isDirectoryAt, node?_rewrite_of_ne here]

namespace SameShape

theorem trans {u : FileTree} (h : SameShape s t) (h' : SameShape t u) : SameShape s u :=
  ⟨h.keys.trans h'.keys, fun names => (h.directories names).trans (h'.directories names)⟩

theorem isSome_node? (h : SameShape s t) (names : List String) :
    (s.node? names).isSome = (t.node? names).isSome := by
  rw [node?, node?]
  split
  · rfl
  · rw [Bool.eq_iff_iff]
    show s.nodes.contains names = true ↔ t.nodes.contains names = true
    rw [Table.contains_iff_mem_keys, Table.contains_iff_mem_keys, h.keys]

theorem walkPart_eq (h : SameShape s t) : s.walkPart = t.walkPart := by
  funext names part
  simp only [walkPart, h.directories, h.isSome_node?]

theorem locate_eq (h : SameShape s t) : s.locate = t.locate := by
  funext p
  simp only [locate, h.walkPart_eq, h.isSome_node?]

theorem entries_eq (h : SameShape s t) : s.entries = t.entries := by
  funext p
  simp only [entries, h.locate_eq, h.keys]

theorem entriesBelow_eq (h : SameShape s t) : s.entriesBelow = t.entriesBelow := by
  funext p
  simp only [entriesBelow, h.locate_eq, h.keys]

theorem exists?_eq (h : SameShape s t) : s.exists? = t.exists? := by
  funext p
  rw [exists?, exists?, get?, get?, h.locate_eq]
  cases t.locate p with
  | ok names => exact h.isSome_node? names
  | error e => rfl

theorem isDirectory_eq (h : SameShape s t) : s.isDirectory = t.isDirectory := by
  funext p
  rw [isDirectory, isDirectory, get?, get?, h.locate_eq]
  cases t.locate p with
  | ok names => exact h.directories names
  | error e => rfl

theorem isFile_eq (h : SameShape s t) : s.isFile = t.isFile := by
  have other (t : FileTree) (p : Path) : t.isFile p = (t.exists? p && !t.isDirectory p) := by
    rw [isFile, exists?, isDirectory]
    cases t.get? p with
    | none => rfl
    | some n => cases n <;> rfl
  funext p
  rw [other, other, h.exists?_eq, h.isDirectory_eq]

theorem canonicalOrSame_eq (h : SameShape s t) : s.canonicalOrSame = t.canonicalOrSame := by
  funext p
  simp only [canonicalOrSame, canonical?, h.locate_eq]

/-- A file with the same content reads the same. -/
theorem readText_eq (h : SameShape s t)
    (same : ∀ names, s.locate p = .ok names → s.node? names = t.node? names) :
    s.readText p = t.readText p := by
  have located := congrFun h.locate_eq p
  cases place : s.locate p with
  | error e => rw [readText_of_error place, readText_of_error (located ▸ place)]
  | ok names =>
      rw [readText_of_locate place, readText_of_locate (located ▸ place), same names place]

end SameShape

end DiagnosticWatch.FileTree
