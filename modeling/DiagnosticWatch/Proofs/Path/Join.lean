import DiagnosticWatch.Proofs.Path.Normal

/-!
# Joined paths and parents

Joining a part adds the component of the part, and the parent of a path has one component less. Both
hold whatever separators and silent parts the path is spelled with.
-/

namespace DiagnosticWatch.Path

variable {p : Path} {name : String}

/-- The components of a text that does not begin at the root. -/
theorem componentsOf_relative {c : Char} (relative : c ≠ '/') (cs : List Char) :
    componentsOf (c :: cs) =
      match Text.split '/' (c :: cs) with
      | ['.'] :: parts => .current :: parts.filterMap component?
      | parts => parts.filterMap component? := by
  rw [componentsOf.eq_def]
  split
  · rename_i h
    cases h
  · rename_i h
    exact absurd (List.cons.inj h).1 relative
  · rfl

theorem componentsOf_append_sep {cs : List Char} (nonempty : cs ≠ []) (rest : List Char) :
    componentsOf (cs ++ '/' :: rest) =
      componentsOf cs ++ (Text.split '/' rest).filterMap component? := by
  cases cs with
  | nil => exact absurd rfl nonempty
  | cons c cs =>
      by_cases root : c = '/'
      · subst root
        rw [List.cons_append, componentsOf, componentsOf, Text.split_append, List.filterMap_append,
          List.cons_append]
      · have parts := Text.split_append '/' (c :: cs) rest
        rw [List.cons_append] at parts ⊢
        rw [componentsOf_relative root, componentsOf_relative root, parts]
        cases hs : Text.split '/' (c :: cs) with
        | nil => exact absurd hs (Text.split_ne_nil _ _)
        | cons first more =>
            by_cases current : first = ['.']
            · subst current
              exact congrArg (List.cons _) List.filterMap_append
            · have whole : (first :: more ++ Text.split '/' rest).filterMap component? =
                  (first :: more).filterMap component? ++
                    (Text.split '/' rest).filterMap component? :=
                List.filterMap_append
              simpa [current] using whole

theorem root_not_mem (parts : List (List Char)) : .root ∉ parts.filterMap component? := by
  intro h
  obtain ⟨part, -, component⟩ := List.mem_filterMap.1 h
  obtain ⟨h, -⟩ | h := component?_eq_some component <;> cases h

/-- A path is absolute if its components start at the root, so its spelling does not matter. -/
theorem isAbsolute_iff : p.isAbsolute = true ↔ p.location.head? = some .root := by
  rw [isAbsolute, location]
  cases p.text.toList with
  | nil => simp [componentsOf]
  | cons c cs =>
      by_cases root : c = '/'
      · subst root
        simp [componentsOf]
      · rw [componentsOf_relative root]
        have apart : (some c == some '/') = false := by simpa using root
        rw [List.head?_cons, apart]
        split
        · simp
        · simpa using fun h => root_not_mem _ (List.mem_of_head? h)

theorem isAbsolute_congr {q : Path} (h : p.location = q.location) :
    p.isAbsolute = q.isAbsolute := by
  rw [Bool.eq_iff_iff, isAbsolute_iff, isAbsolute_iff, h]

theorem isAbsolute_of_not_mem (free : '/' ∉ name.toList) : (⟨name⟩ : Path).isAbsolute = false := by
  rw [isAbsolute]
  cases hname : name.toList with
  | nil => rfl
  | cons c cs =>
      have other : c ≠ '/' := fun h => free (by simp [hname, h])
      simpa using other

theorem isAbsolute_of_join {q : Path} (relative : q.isAbsolute = false)
    (h : (p.join q).isAbsolute = true) : p.isAbsolute = true := by
  rw [join, relative, if_neg Bool.false_ne_true] at h
  cases chars : p.text.toList with
  | nil =>
      have empty : p.text = "" := by simpa using chars
      simp [empty, isAbsolute] at h relative
      exact absurd h relative
  | cons c cs =>
      have visible : p.text.isEmpty = false := by
        simpa using fun empty : p.text = "" => by simp [empty] at chars
      rw [visible, Bool.false_or] at h
      split at h <;> simpa [isAbsolute, String.toList_append, chars] using h

/-- Behind a path that is not empty a relative path adds the components of its parts. -/
theorem location_join_relative {q : Path} (nonempty : p.text ≠ "")
    (relative : q.isAbsolute = false) :
    (p.join q).location = p.location ++ (Text.split '/' q.text.toList).filterMap component? := by
  have visible : p.text.isEmpty = false := by simpa using nonempty
  rw [join, relative, if_neg Bool.false_ne_true, visible, Bool.false_or]
  split
  · rename_i slash
    have silent : (Text.split '/' []).filterMap component? = [] := rfl
    obtain ⟨front, hfront⟩ := List.getLast?_eq_some_iff.1 (by simpa using slash)
    simp only [location, String.toList_append]
    rw [hfront, List.append_assoc, List.singleton_append]
    by_cases root : front = []
    · subst root
      rw [List.nil_append, List.nil_append, componentsOf, componentsOf, silent]
      rfl
    · rw [componentsOf_append_sep root, componentsOf_append_sep root, silent, List.append_nil]
  · have chars : p.text.toList ≠ [] := by simpa using nonempty
    simp only [location, String.toList_append]
    rw [List.append_assoc]
    exact componentsOf_append_sep chars q.text.toList

/-- Behind a path that is not empty a part adds its component. -/
theorem location_join_part (nonempty : p.text ≠ "") (free : '/' ∉ name.toList) :
    (p.join ⟨name⟩).location = p.location ++ (component? name.toList).toList := by
  rw [location_join_relative nonempty (isAbsolute_of_not_mem free), Text.split_of_not_mem free]
  cases h : component? name.toList <;> simp [h]

/-- A name adds a component, whatever path it is joined to. -/
theorem location_join (plain : PlainName name) (p : Path) :
    (p.join ⟨name⟩).location = p.location ++ [.normal name] := by
  by_cases nonempty : p.text = ""
  · obtain rfl : p = ⟨""⟩ := congrArg Path.mk nonempty
    have joined : (⟨""⟩ : Path).join ⟨name⟩ = ⟨name⟩ := by
      rw [join, isAbsolute_of_not_mem plain.free, if_neg Bool.false_ne_true]
      simp
    have component := plain.component
    rw [joined, location]
    cases hname : name.toList with
    | nil => simp [hname, component?] at component
    | cons c cs =>
        have relative : c ≠ '/' := fun h => plain.free (by simp [hname, h])
        rw [componentsOf_relative relative, ← hname, Text.split_of_not_mem plain.free]
        split
        · rename_i current
          simp [(List.cons.inj current).1, component?] at component
        · simp [component, location, componentsOf]
  · rw [location_join_part nonempty plain.free, plain.component]
    rfl

theorem fileName?_join (plain : PlainName name) (p : Path) :
    (p.join ⟨name⟩).fileName? = some name := by
  rw [fileName?, location_join plain, List.getLast?_concat]

/-- A name that is joined to an absolute path is the last part of the text. -/
theorem exists_parts_join (absolute : p.isAbsolute = true) (plain : PlainName name) :
    ∃ rest parts, (p.join ⟨name⟩).text.toList = '/' :: rest ∧
      Text.split '/' rest = parts ++ [name.toList] ∧
        p.location = .root :: parts.filterMap component? := by
  obtain ⟨front, hfront⟩ : ∃ front, (p.join ⟨name⟩).text.toList = front ++ '/' :: name.toList := by
    rw [join, isAbsolute_of_not_mem plain.free, if_neg Bool.false_ne_true]
    split
    · rename_i ends
      obtain ⟨cs, htext⟩ := exists_text_of_isAbsolute absolute
      have visible : p.text.isEmpty = false := by
        simpa using fun h : p.text = "" => by simp [h] at htext
      obtain ⟨front, hfront⟩ := List.getLast?_eq_some_iff.1 (by simpa [visible] using ends)
      exact ⟨front, by simp [String.toList_append, hfront]⟩
    · exact ⟨p.text.toList, by simp [String.toList_append]⟩
  obtain ⟨rest, hrest⟩ := exists_text_of_isAbsolute (isAbsolute_join absolute ⟨name⟩)
  have parts : Text.split '/' ('/' :: rest) = Text.split '/' front ++ [name.toList] := by
    rw [← hrest, hfront, Text.split_append, Text.split_of_not_mem plain.free]
  rw [Text.split, if_pos rfl] at parts
  obtain ⟨first, more, hsplit⟩ := List.exists_cons_of_ne_nil (Text.split_ne_nil '/' front)
  rw [hsplit, List.cons_append] at parts
  have hparts := (List.cons.inj parts).2
  refine ⟨rest, more, hrest, hparts, ?_⟩
  have joined := location_join plain p
  rw [location, hrest, componentsOf, hparts, List.filterMap_append,
    List.filterMap_cons_some plain.component, List.filterMap_nil, ← List.cons_append] at joined
  exact (List.append_inj_left' joined rfl).symm

def joinAll (p : Path) (names : List String) : Path :=
  names.foldl (fun p name => p.join ⟨name⟩) p

theorem joinAll_concat (p : Path) (names : List String) (name : String) :
    p.joinAll (names ++ [name]) = (p.joinAll names).join ⟨name⟩ := by
  rw [joinAll, List.foldl_append]
  rfl

theorem location_joinAll {names : List String} (plain : ∀ name ∈ names, PlainName name) (p : Path) :
    (p.joinAll names).location = p.location ++ names.map .normal := by
  induction names generalizing p with
  | nil => exact (List.append_nil _).symm
  | cons name names ih =>
      obtain ⟨first, rest⟩ := List.forall_mem_cons.1 plain
      show ((p.join ⟨name⟩).joinAll names).location = _
      rw [ih rest, location_join first, List.append_assoc]
      rfl

theorem isAbsolute_joinAll (absolute : p.isAbsolute = true) (names : List String) :
    (p.joinAll names).isAbsolute = true := by
  induction names generalizing p with
  | nil => exact absolute
  | cons name names ih => exact ih (isAbsolute_join absolute ⟨name⟩)

/-- A path that names lead down to, however it is spelled. -/
def Descends (p q : Path) : Prop :=
  q.isAbsolute = true ∧
    ∃ names : List String, (∀ name ∈ names, PlainName name) ∧
      q.location = p.location ++ names.map .normal

namespace Descends

variable {q r : Path}

theorem refl (absolute : p.isAbsolute = true) : Descends p p :=
  ⟨absolute, [], by simp, by simp⟩

theorem trans (h : Descends p q) (h' : Descends q r) : Descends p r := by
  obtain ⟨-, names, plain, hq⟩ := h
  obtain ⟨absolute, names', plain', hr⟩ := h'
  refine ⟨absolute, names ++ names', ?_, by rw [hr, hq, List.map_append, List.append_assoc]⟩
  exact List.forall_mem_append.2 ⟨plain, plain'⟩

theorem joinAll (absolute : p.isAbsolute = true) {names : List String}
    (plain : ∀ name ∈ names, PlainName name) : Descends p (p.joinAll names) :=
  ⟨isAbsolute_joinAll absolute names, names, plain, location_joinAll plain p⟩

/-- Every part leads down, unless it leads up. -/
theorem join_part (absolute : p.isAbsolute = true) (free : '/' ∉ name.toList) (h : name ≠ "..") :
    Descends p (p.join ⟨name⟩) := by
  have nonempty : p.text ≠ "" := fun empty => by simp [isAbsolute, empty] at absolute
  refine ⟨isAbsolute_join absolute _, ?_⟩
  rw [location_join_part nonempty free]
  cases component : component? name.toList with
  | none => exact ⟨[], by simp, by simp⟩
  | some c =>
      obtain ⟨-, up⟩ | rfl := component?_eq_some component
      · exact absurd (String.toList_inj.1 up) h
      · rw [String.ofList_toList] at component ⊢
        exact ⟨[name], by simpa using ⟨free, component⟩, rfl⟩

end Descends

theorem below?_of_location {base : Path} {rest : Location}
    (h : p.location = base.location ++ rest) : p.below? base = some rest := by
  rw [below?, h]
  induction base.location with
  | nil => rfl
  | cons c cs ih => rw [List.cons_append, below?.go, if_pos rfl, ih]

theorem location_of_below? {base : Path} {rest : Location} (h : p.below? base = some rest) :
    p.location = base.location ++ rest := by
  have walked (bs cs : Location) (h : below?.go bs cs = some rest) : cs = bs ++ rest := by
    induction bs generalizing cs with
    | nil => exact Option.some.inj h
    | cons b bs ih =>
        cases cs with
        | nil => cases h
        | cons c cs =>
            rw [below?.go] at h
            split at h
            · rename_i same
              rw [same, ih cs h, List.cons_append]
            · cases h
  exact walked _ _ h

theorem isSilent_iff {part : List Char} : isSilent part = true ↔ component? part = none := by
  rw [isSilent, component?]
  split
  · rename_i silent
    simpa using silent
  · rename_i speaks
    split <;> simpa using speaks

theorem filterMap_dropWhile_isSilent (parts : List (List Char)) :
    (parts.dropWhile isSilent).filterMap component? = parts.filterMap component? := by
  induction parts with
  | nil => rfl
  | cons part parts ih =>
      by_cases silent : isSilent part = true
      · rw [List.dropWhile_cons_of_pos silent, ih, List.filterMap_cons_none (isSilent_iff.1 silent)]
      · rw [List.dropWhile_cons_of_neg silent]

/-- Behind the first part silent parts are dropped. -/
theorem dropSilent_concat (parts : List (List Char)) (first : List Char) :
    dropSilent (parts ++ [first]) = parts.dropWhile isSilent ++ [first] := by
  induction parts with
  | nil => rfl
  | cons part parts ih =>
      obtain ⟨next, rest, hrest⟩ : ∃ next rest, parts ++ [first] = next :: rest :=
        List.exists_cons_of_ne_nil (by simp)
      rw [List.cons_append, hrest, dropSilent, ← hrest, ih]
      · by_cases silent : isSilent part = true
        · rw [if_pos silent, List.dropWhile_cons_of_pos silent]
        · rw [if_neg silent, List.dropWhile_cons_of_neg silent, List.cons_append]
      · simp

/-- What the first part of a text stands for. -/
def leading (first : List Char) : Location :=
  if first = [] then [.root] else if first = ['.'] then [.current] else (component? first).toList

theorem length_leading_le (first : List Char) : (leading first).length ≤ 1 := by
  unfold leading
  split
  · exact Nat.le_refl 1
  · split
    · exact Nat.le_refl 1
    · cases component? first <;> simp

/-- The components of a text are those of its parts; the first part counts even if it names
nothing. -/
theorem componentsOf_join {first : List Char} {parts : List (List Char)}
    (free : ∀ part ∈ first :: parts, '/' ∉ part) (nonempty : ¬(first = [] ∧ parts = [])) :
    componentsOf (Text.join '/' (first :: parts)) =
      leading first ++ parts.filterMap component? := by
  have split := Text.split_join (List.cons_ne_nil first parts) free
  obtain ⟨free, rest⟩ := List.forall_mem_cons.1 free
  cases first with
  | nil =>
      obtain ⟨part, more, rfl⟩ := List.exists_cons_of_ne_nil fun h => nonempty ⟨rfl, h⟩
      show componentsOf ('/' :: Text.join '/' (part :: more)) = _
      rw [componentsOf, Text.split_join (List.cons_ne_nil _ _) rest]
      rfl
  | cons c cs =>
      have relative : c ≠ '/' := fun h => free (h ▸ List.mem_cons_self)
      obtain ⟨tail, htail⟩ : ∃ tail, Text.join '/' ((c :: cs) :: parts) = c :: tail := by
        cases parts <;> exact ⟨_, rfl⟩
      rw [htail] at split ⊢
      rw [componentsOf_relative relative, split]
      by_cases current : c :: cs = ['.']
      · rw [current]
        rfl
      · cases hc : component? (c :: cs) <;> simp [leading, current, hc]

/-- The parts of a path that is not empty, in reverse and without the silent ones at its end, and
what they stand for. -/
theorem exists_kept (nonempty : p.text ≠ "") :
    ∃ first kept, dropSilent (Text.split '/' p.text.toList).reverse = kept ++ [first] ∧
      (∀ part ∈ first :: kept, '/' ∉ part) ∧ (∀ part ∈ kept.head?, isSilent part = false) ∧
        p.location = leading first ++ (kept.filterMap component?).reverse := by
  obtain ⟨first, parts, hparts⟩ := List.exists_cons_of_ne_nil (Text.split_ne_nil '/' p.text.toList)
  have free : ∀ part ∈ first :: parts, '/' ∉ part :=
    fun part hpart => Text.not_mem_of_mem_split (hparts ▸ hpart)
  have text : Text.join '/' (first :: parts) = p.text.toList := by rw [← hparts, Text.join_split]
  refine ⟨first, parts.reverse.dropWhile isSilent, ?_, fun part hpart => free part ?_, ?_, ?_⟩
  · rw [hparts, List.reverse_cons, dropSilent_concat]
  · refine List.cons_subset_cons _ (fun part hpart => ?_) hpart
    exact List.mem_reverse.1 ((List.dropWhile_sublist isSilent).subset hpart)
  · intro part hpart
    have speaks := List.head?_dropWhile_not isSilent parts.reverse
    rw [Option.mem_def.1 hpart] at speaks
    exact speaks
  · rw [filterMap_dropWhile_isSilent, List.filterMap_reverse, List.reverse_reverse, location,
      ← text, componentsOf_join free]
    rintro ⟨rfl, rfl⟩
    exact nonempty (String.toList_inj.1 text.symm)

/-- The path of a first part and some more, given in reverse. Silent ones at its end are left
out. -/
theorem exists_path_of_parts {first : List Char} {parts : List (List Char)}
    (free : ∀ part ∈ first :: parts, '/' ∉ part) :
    ∃ q : Path,
      (match dropSilent (parts ++ [first]) with
        | [[]] => some ⟨"/"⟩
        | kept => some ⟨String.ofList (Text.join '/' kept.reverse)⟩) = some q ∧
      q.location = leading first ++ (parts.filterMap component?).reverse := by
  rw [dropSilent_concat, ← filterMap_dropWhile_isSilent]
  have kept : ∀ part ∈ first :: (parts.dropWhile isSilent).reverse, '/' ∉ part := by
    obtain ⟨first, rest⟩ := List.forall_mem_cons.1 free
    exact List.forall_mem_cons.2 ⟨first, fun part h =>
      rest part ((List.dropWhile_sublist isSilent).subset (List.mem_reverse.1 h))⟩
  generalize parts.dropWhile isSilent = more at kept ⊢
  by_cases root : first = [] ∧ more = []
  · obtain ⟨rfl, rfl⟩ := root
    exact ⟨_, rfl, rfl⟩
  · refine ⟨⟨String.ofList (Text.join '/' (more ++ [first]).reverse)⟩, ?_, ?_⟩
    · split
      · rename_i h
        cases more <;> simp_all
      · rfl
    · rw [location, String.toList_ofList, List.reverse_append, List.reverse_singleton,
        List.singleton_append, componentsOf_join kept (by simpa using root),
        List.filterMap_reverse]

/-- The parent of a path has all components but the last one, unless that is the root. -/
theorem exists_parent {front : Location} {c : Component} (h : p.location = front ++ [c])
    (below : c ≠ .root) : ∃ q, p.parent? = some q ∧ q.location = front := by
  have nonempty : p.text ≠ "" := by
    intro empty
    simp [location, empty, componentsOf] at h
  obtain ⟨first, kept, hkept, free, speaks, components⟩ := exists_kept nonempty
  have last : p.location.getLast? = some c := by rw [h, List.getLast?_concat]
  rw [parent?, last, hkept]
  rw [h] at components
  split
  · rename_i h
    cases h
  · rename_i h
    exact absurd (Option.some.inj h) below
  · cases kept with
    | nil =>
        have short := length_leading_le first
        rw [List.filterMap_nil, List.reverse_nil, List.append_nil] at components
        rw [← components, List.length_append, List.length_singleton] at short
        obtain rfl : front = [] := List.eq_nil_of_length_eq_zero (by omega)
        exact ⟨⟨""⟩, rfl, rfl⟩
    | cons part more =>
        -- The last part that is not silent makes the last component, and those in front of it make
        -- the parent.
        have speaks : isSilent part = false := speaks part rfl
        obtain ⟨d, hd⟩ : ∃ d, component? part = some d :=
          Option.ne_none_iff_exists'.1 fun silent => by simp [isSilent_iff.2 silent] at speaks
        rw [List.filterMap_cons_some hd, List.reverse_cons, ← List.append_assoc] at components
        obtain ⟨rfl, -⟩ := List.append_inj' components rfl
        obtain ⟨next, rest, hrest⟩ : ∃ next rest, more ++ [first] = next :: rest :=
          List.exists_cons_of_ne_nil (by simp)
        simp only [List.cons_append, hrest]
        rw [← hrest]
        refine exists_path_of_parts fun q hq => free q ?_
        exact List.cons_subset_cons _ (List.subset_cons_self part more) hq

end DiagnosticWatch.Path
