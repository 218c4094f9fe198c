import DiagnosticWatch.Proofs.Path.Join
import Mathlib.Data.List.Basic

/-!
# Normal forms are canonical

Joining is associative, so a path seen from a base is a walk that starts where the base ends. A walk
can be interrupted anywhere: what is left of it goes on from the normal form of what has been
passed. The laws of `normalize` follow (`normalize_canonical`): it composes along joined paths, it
looks at no more of its base than the normal form, and its result is spelled as names below the
root.
-/

namespace DiagnosticWatch.Path

variable {p q base : Path}

theorem join_of_isAbsolute (p : Path) (absolute : q.isAbsolute = true) : p.join q = q := by
  rw [join, if_pos absolute]

theorem join_of_empty (empty : p.text = "") (q : Path) : p.join q = q := by
  rw [join]
  split
  · rfl
  · simp [empty]

/-- Behind a path that is not empty stands one separator at least. -/
theorem join_of_relative (nonempty : p.text ≠ "") (relative : q.isAbsolute = false) :
    p.join q =
      ⟨p.text ++ (if p.text.toList.getLast? == some '/' then "" else "/") ++ q.text⟩ := by
  have visible : p.text.isEmpty = false := by simpa using nonempty
  rw [join, relative, if_neg Bool.false_ne_true, visible, Bool.false_or]
  split
  · rw [String.append_empty]
  · rfl

theorem join_assoc (base p q : Path) : (base.join p).join q = base.join (p.join q) := by
  by_cases absolute : q.isAbsolute = true
  · rw [join_of_isAbsolute _ absolute, join_of_isAbsolute p absolute,
      join_of_isAbsolute base absolute]
  have relative : q.isAbsolute = false := by simpa using absolute
  by_cases rooted : p.isAbsolute = true
  · rw [join_of_isAbsolute base rooted, join_of_isAbsolute base (isAbsolute_join rooted q)]
  have below : p.isAbsolute = false := by simpa using rooted
  by_cases nowhere : base.text = ""
  · rw [join_of_empty nowhere, join_of_empty nowhere]
  have joined : (p.join q).isAbsolute = false := by
    apply Bool.eq_false_iff.2
    intro h
    exact rooted (isAbsolute_of_join relative h)
  have behind : (base.join p).text ≠ "" := by
    rw [join_of_relative nowhere below]
    simp [nowhere]
  rw [join_of_relative behind relative, join_of_relative nowhere joined,
    join_of_relative nowhere below]
  by_cases here : p.text = ""
  · -- The separator is put in front of the empty path, or in front of what is joined to it.
    rw [join_of_empty here]
    by_cases ends : base.text.toList.getLast? = some '/'
    · simp [here, ends]
    · simp [here, ends, String.toList_append]
  · have last : (base.text ++ (if base.text.toList.getLast? == some '/' then "" else "/") ++
        p.text).toList.getLast? = p.text.toList.getLast? := by
      have chars : p.text.toList ≠ [] := by simpa using here
      rw [String.toList_append, List.getLast?_append_of_ne_nil _ chars]
    simp only [last]
    rw [join_of_relative here relative]
    simp only [String.append_assoc]

/-- A walk goes on from the normal form of what it has passed. -/
theorem resolve_append {front : Location} (downward : Downward (resolve front)) (rest : Location) :
    resolve (resolve front ++ rest) = resolve (front ++ rest) := by
  have passed : (resolve front).foldl step [] = front.foldl step [] := by
    apply List.reverse_inj.1
    exact resolve_downward downward
  have onward (steps : Location) :
      resolve (steps ++ rest) = (rest.foldl step (steps.foldl step [])).reverse := by
    rw [resolve, List.foldl_append]
  rw [onward, onward, passed]

theorem location_normal (absolute : p.isAbsolute = true) :
    (ofLocation (resolve p.location)).location = resolve p.location :=
  location_ofLocation (downward_resolve absolute)

theorem isAbsolute_normal (absolute : p.isAbsolute = true) :
    (ofLocation (resolve p.location)).isAbsolute = true :=
  isAbsolute_ofLocation (downward_resolve absolute)

theorem text_ne_of_isAbsolute (absolute : p.isAbsolute = true) : p.text ≠ "" := by
  intro empty
  simp [isAbsolute, empty] at absolute

/-- What is joined to an absolute path may be joined to its normal form. -/
theorem resolve_join (absolute : p.isAbsolute = true) (q : Path) :
    resolve ((ofLocation (resolve p.location)).join q).location = resolve (p.join q).location := by
  by_cases rooted : q.isAbsolute = true
  · rw [join_of_isAbsolute _ rooted, join_of_isAbsolute _ rooted]
  · have relative : q.isAbsolute = false := by simpa using rooted
    rw [location_join_relative (text_ne_of_isAbsolute (isAbsolute_normal absolute)) relative,
      location_join_relative (text_ne_of_isAbsolute absolute) relative, location_normal absolute,
      resolve_append (downward_resolve absolute)]

theorem normalize_eq (p base : Path) :
    p.normalize base = ofLocation (resolve (base.join p).location) := by
  rw [normalize]
  split
  · rename_i absolute
    rw [join_of_isAbsolute base absolute]
  · rfl

theorem location_normalize_eq (absolute : base.isAbsolute = true) (p : Path) :
    (p.normalize base).location = resolve (base.join p).location := by
  rw [normalize_eq]
  exact location_normal (isAbsolute_join absolute p)

theorem normalize_join (absolute : base.isAbsolute = true) (p q : Path) :
    (p.join q).normalize base = q.normalize (p.normalize base) := by
  rw [normalize_eq, normalize_eq q, normalize_eq p, ← join_assoc,
    resolve_join (isAbsolute_join absolute p)]

/-- A base may be replaced by its normal form. -/
theorem normalize_base (absolute : base.isAbsolute = true) (p base' : Path) :
    p.normalize (base.normalize base') = p.normalize base := by
  rw [normalize_of_isAbsolute absolute, normalize_eq, normalize_eq, resolve_join absolute]

/-- A name is kept behind the normal form. -/
theorem location_normalize_name {name : String} (absolute : base.isAbsolute = true)
    (plain : PlainName name) (p : Path) :
    ((p.join ⟨name⟩).normalize base).location = (p.normalize base).location ++ [.normal name] := by
  rw [location_normalize_eq absolute, location_normalize_eq absolute, ← join_assoc,
    location_join plain, resolve, List.foldl_append]
  exact List.reverse_cons

/-- `..` takes back the last name and stays at the root. -/
theorem location_normalize_parent (absolute : base.isAbsolute = true) (p : Path) :
    ((p.join ⟨".."⟩).normalize base).location =
      .root :: (p.normalize base).location.tail.dropLast := by
  have rooted := isAbsolute_join absolute p
  obtain ⟨names, downward, -⟩ := downward_resolve rooted
  have passed : (base.join p).location.foldl step [] =
      (names.map Component.normal).reverse ++ [.root] := by
    rw [← List.reverse_reverse (List.foldl step [] _), ← resolve, downward, List.reverse_cons]
  rw [location_normalize_eq absolute, location_normalize_eq absolute, ← join_assoc,
    location_join_part (text_ne_of_isAbsolute rooted) (by decide), downward, resolve,
    List.foldl_append, passed]
  obtain rfl | ⟨front, last, rfl⟩ := List.eq_nil_or_concat names
  · rfl
  · simp [component?, step]

/-- The parts of a normal form are names, behind an empty one in front of the root. -/
theorem parts_of_downward {location : Location} (downward : Downward location) :
    ∀ part ∈ Text.split '/' (ofLocation location).text.toList,
      part ≠ ['.'] ∧ part ≠ ['.', '.'] := by
  obtain ⟨names, rfl, plain⟩ := downward
  rw [toList_ofLocation_root, Text.split, if_pos rfl]
  intro part hpart
  obtain rfl | hpart := List.mem_cons.1 hpart
  · decide
  · obtain rfl | ⟨first, rest, rfl⟩ : names = [] ∨ ∃ first rest, names = first :: rest := by
      cases names <;> simp
    · obtain rfl : part = [] := by simpa [Text.join, Text.split] using hpart
      decide
    · rw [Text.split_join (by simp)] at hpart
      · obtain ⟨name, hname, rfl⟩ := List.mem_map.1 hpart
        have component := (plain name hname).component
        constructor
        · intro current
          rw [current] at component
          cases component
        · intro up
          rw [up] at component
          cases component
      · intro part hpart
        obtain ⟨name, hname, rfl⟩ := List.mem_map.1 hpart
        exact (plain name hname).free

/-- The normal form of a path, seen from an absolute base, is absolute, and none of its parts is `.`
or `..`; it is its own normal form, from whatever base. Normalising a joined path is normalising its
second part from the normal form of the first: a name is added at the end, and `..` takes back the
last name or stays at the root. Of its base it depends on the normal form only. -/
theorem normalize_canonical {base : Path} (absolute : base.isAbsolute = true) (p q base' : Path) :
    ((p.normalize base).isAbsolute = true ∧
      ∀ part ∈ Text.split '/' (p.normalize base).text.toList, part ≠ ['.'] ∧ part ≠ ['.', '.']) ∧
    (p.normalize base).normalize base' = p.normalize base ∧
    (p.join q).normalize base = q.normalize (p.normalize base) ∧
    (∀ name, PlainName name →
      ((p.join ⟨name⟩).normalize base).location = (p.normalize base).location ++ [.normal name]) ∧
    ((p.join ⟨".."⟩).normalize base).location =
      .root :: (p.normalize base).location.tail.dropLast ∧
    p.normalize (base.normalize base') = p.normalize base := by
  obtain ⟨location, spelled, downward⟩ := downward_normalize absolute p
  refine ⟨⟨?_, ?_⟩, normalize_normalize absolute p base', normalize_join absolute p q, ?_,
    location_normalize_parent absolute p, normalize_base absolute p base'⟩
  · rw [spelled]
    exact isAbsolute_ofLocation downward
  · rw [spelled]
    exact parts_of_downward downward
  · intro name plain
    exact location_normalize_name absolute plain p

/-- A base that is spelled with silent parts, and a path that climbs past the root. -/
theorem normalize_canonical_climbing :
    (⟨"/w/.//app/"⟩ : Path).isAbsolute = true ∧
    (⟨"/w/.//app/"⟩ : Path).normalize ⟨"lib"⟩ = ⟨"/w/app"⟩ ∧
    ((⟨"./../../.."⟩ : Path).join ⟨"src/./b.ts"⟩).normalize ⟨"/w/.//app/"⟩ = ⟨"/src/b.ts"⟩ ∧
    (⟨"src/./b.ts"⟩ : Path).normalize ((⟨"./../../.."⟩ : Path).normalize ⟨"/w/.//app/"⟩) =
      ⟨"/src/b.ts"⟩ ∧
    (⟨"./../../.."⟩ : Path).normalize ⟨"/w/app"⟩ = ⟨"/"⟩ := by
  have absolute : (⟨"/w/.//app/"⟩ : Path).isAbsolute = true := by decide
  have base : (⟨"/w/.//app/"⟩ : Path).normalize ⟨"lib"⟩ = ⟨"/w/app"⟩ := by decide +kernel
  obtain ⟨-, -, joined, -, -, normal⟩ :=
    normalize_canonical absolute ⟨"./../../.."⟩ ⟨"src/./b.ts"⟩ ⟨"lib"⟩
  have whole : ((⟨"./../../.."⟩ : Path).join ⟨"src/./b.ts"⟩).normalize ⟨"/w/.//app/"⟩ =
      ⟨"/src/b.ts"⟩ := by decide +kernel
  refine ⟨absolute, base, whole, joined ▸ whole, ?_⟩
  rw [← base, normal]
  decide +kernel

end DiagnosticWatch.Path
