import DiagnosticWatch.Path

/-!
# Normal paths

Behind the root a walk passes names only: it drops every `.`, and `..` takes back a name or stays at
the root. So the normal form of a path, seen from an absolute base, is a list of names from the root
downwards. Its spelling denotes that list again, and nothing is left to be done in a second walk.
-/

namespace DiagnosticWatch.Path

/-- A text that can be the name of a component. -/
structure PlainName (name : String) : Prop where
  free : '/' ∉ name.toList
  component : component? name.toList = some (.normal name)

instance (name : String) : Decidable (PlainName name) :=
  decidable_of_iff ('/' ∉ name.toList ∧ component? name.toList = some (.normal name))
    ⟨fun h => ⟨h.1, h.2⟩, fun h => ⟨h.free, h.component⟩⟩

/-- A location given by names from the root downwards. -/
def Downward (location : Location) : Prop :=
  ∃ names : List String, location = .root :: names.map .normal ∧ ∀ name ∈ names, PlainName name

/-- A part leads up, or it is a name. -/
theorem component?_eq_some {part : List Char} {c : Component} (h : component? part = some c) :
    (c = .parent ∧ part = ['.', '.']) ∨ c = .normal (String.ofList part) := by
  rw [component?] at h
  split at h
  · cases h
  · split at h
    · rename_i up
      exact .inl ⟨(Option.some.inj h).symm, up⟩
    · exact .inr (Option.some.inj h).symm

theorem filterMap_component? {names : List String} (plain : ∀ name ∈ names, PlainName name) :
    (names.map String.toList).filterMap component? = names.map Component.normal := by
  induction names with
  | nil => rfl
  | cons name names ih =>
      rw [List.map_cons, List.filterMap_cons_some (plain name List.mem_cons_self).component,
        ih fun n hn => plain n (List.mem_cons_of_mem _ hn), List.map_cons]

theorem components_of_names {names : List String} (plain : ∀ name ∈ names, PlainName name) :
    (Text.split '/' (Text.join '/' (names.map String.toList))).filterMap component? =
      names.map Component.normal := by
  cases names with
  | nil => rfl
  | cons name names =>
      rw [Text.split_join (by simp)]
      · exact filterMap_component? plain
      · intro part hpart
        obtain ⟨n, hn, rfl⟩ := List.mem_map.1 hpart
        exact (plain n hn).free

theorem map_text_normal (names : List String) :
    (names.map Component.normal).map Component.text = names := by
  rw [List.map_map]
  exact List.map_id names

theorem toList_ofLocation_root (names : List String) :
    (ofLocation (.root :: names.map .normal)).text.toList =
      '/' :: Text.join '/' (names.map String.toList) := by
  rw [ofLocation, map_text_normal, Text.joinTexts, String.toList_append]
  exact congrArg (List.cons '/') String.toList_ofList

theorem toList_ofLocation_names (names : List String) :
    (ofLocation (names.map .normal)).text.toList = Text.join '/' (names.map String.toList) := by
  unfold ofLocation
  split
  · rename_i rest heq
    cases names <;> cases heq
  · rw [map_text_normal, Text.joinTexts, String.toList_ofList]

theorem location_ofLocation {location : Location} (h : Downward location) :
    (ofLocation location).location = location := by
  obtain ⟨names, rfl, plain⟩ := h
  rw [Path.location, toList_ofLocation_root, componentsOf, components_of_names plain]

theorem isAbsolute_ofLocation {location : Location} (h : Downward location) :
    (ofLocation location).isAbsolute = true := by
  obtain ⟨names, rfl, -⟩ := h
  rw [isAbsolute, toList_ofLocation_root]
  rfl

/-- Where a walk stands that has passed some names below the root, the latest first. -/
theorem foldl_step_normal (names : List String) (passed : Location) :
    (names.map Component.normal).foldl step passed =
      (names.map Component.normal).reverse ++ passed := by
  induction names generalizing passed with
  | nil => rfl
  | cons name names ih =>
      rw [List.map_cons, List.foldl_cons, step, ih, List.reverse_cons, List.append_assoc]
      · rfl
      · simp
      · simp

theorem resolve_downward {location : Location} (h : Downward location) :
    resolve location = location := by
  obtain ⟨names, rfl, -⟩ := h
  rw [resolve, List.foldl_cons, foldl_step_normal]
  simp [step]

/-- A walk that starts at the root passes names only, whatever steps it takes. -/
theorem foldl_step_downward {steps : Location}
    (allowed : ∀ c ∈ steps, c = .parent ∨ ∃ name, c = .normal name ∧ PlainName name)
    {passed : Location} (h : Downward passed.reverse) :
    Downward (steps.foldl step passed).reverse := by
  induction steps generalizing passed with
  | nil => exact h
  | cons c steps ih =>
      rw [List.foldl_cons]
      apply ih fun c hc => allowed c (List.mem_cons_of_mem _ hc)
      obtain ⟨names, hpassed, plain⟩ := h
      have hpassed : passed = (names.map Component.normal).reverse ++ [.root] := by
        rw [← List.reverse_reverse passed, hpassed, List.reverse_cons]
      obtain rfl | ⟨name, rfl, hname⟩ := allowed c List.mem_cons_self
      · obtain rfl | ⟨front, last, rfl⟩ := List.eq_nil_or_concat names
        · exact ⟨[], by simp [hpassed, step], by simp⟩
        · refine ⟨front, by simp [hpassed, step], ?_⟩
          intro n hn
          exact plain n (by simp [hn])
      · refine ⟨names ++ [name], by simp [hpassed, step], ?_⟩
        intro n hn
        obtain hn | rfl := by simpa using hn
        · exact plain n hn
        · exact hname

theorem exists_text_of_isAbsolute {p : Path} (absolute : p.isAbsolute = true) :
    ∃ cs, p.text.toList = '/' :: cs := by
  rw [isAbsolute] at absolute
  cases htext : p.text.toList with
  | nil => simp [htext] at absolute
  | cons c cs => exact ⟨cs, by simpa [htext] using absolute⟩

/-- The components of an absolute path behind the root. -/
theorem location_of_isAbsolute {p : Path} (h : p.isAbsolute = true) :
    ∃ steps : Location, p.location = .root :: steps ∧
      ∀ c ∈ steps, c = .parent ∨ ∃ name, c = .normal name ∧ PlainName name := by
  obtain ⟨cs, htext⟩ := exists_text_of_isAbsolute h
  refine ⟨(Text.split '/' cs).filterMap component?, by rw [Path.location, htext, componentsOf], ?_⟩
  intro c hc
  obtain ⟨part, hpart, component⟩ := List.mem_filterMap.1 hc
  have free := Text.not_mem_of_mem_split hpart
  obtain ⟨up, -⟩ | rfl := component?_eq_some component
  · exact .inl up
  · exact .inr ⟨_, rfl, by rwa [String.toList_ofList], by rwa [String.toList_ofList]⟩

/-- The names in an absolute path are plain. -/
theorem plainName_of_mem {p : Path} (absolute : p.isAbsolute = true) {name : String}
    (h : .normal name ∈ p.location) : PlainName name := by
  obtain ⟨steps, hsteps, allowed⟩ := location_of_isAbsolute absolute
  rw [hsteps] at h
  obtain root | h := List.mem_cons.1 h
  · cases root
  · obtain up | ⟨name', same, plain⟩ := allowed _ h
    · cases up
    · obtain rfl := Component.normal.inj same
      exact plain

/-- Below an absolute base a path goes on with names and `..` only. -/
theorem allowed_of_location {p base : Path} {rest : Location} (absolute : p.isAbsolute = true)
    (absolute' : base.isAbsolute = true) (h : p.location = base.location ++ rest) :
    ∀ c ∈ rest, c = .parent ∨ ∃ name, c = .normal name ∧ PlainName name := by
  obtain ⟨steps, hsteps, allowed⟩ := location_of_isAbsolute absolute
  obtain ⟨steps', hsteps', -⟩ := location_of_isAbsolute absolute'
  rw [hsteps, hsteps', List.cons_append] at h
  intro c hc
  exact allowed c ((List.cons.inj h).2 ▸ List.mem_append_right _ hc)

theorem map_names {location : Location} (h : ∀ c ∈ location, ∃ name, c = .normal name) :
    (names location).map .normal = location := by
  induction location with
  | nil => rfl
  | cons c location ih =>
      obtain ⟨⟨name, rfl⟩, rest⟩ := List.forall_mem_cons.1 h
      exact congrArg (List.cons _) (ih rest)

theorem isAbsolute_join {base : Path} (h : base.isAbsolute = true) (other : Path) :
    (base.join other).isAbsolute = true := by
  rw [isAbsolute] at h
  have front (rest : String) : (⟨base.text ++ rest⟩ : Path).isAbsolute = true := by
    cases htext : base.text.toList with
    | nil => simp [htext] at h
    | cons c cs => simpa [isAbsolute, String.toList_append, htext] using h
  rw [join]
  split
  · assumption
  · split
    · exact front other.text
    · rw [String.append_assoc]
      exact front _

/-- A walk along an absolute path ends at names from the root downwards. -/
theorem downward_resolve {p : Path} (absolute : p.isAbsolute = true) :
    Downward (resolve p.location) := by
  obtain ⟨steps, hsteps, allowed⟩ := location_of_isAbsolute absolute
  rw [hsteps, resolve, List.foldl_cons]
  exact foldl_step_downward allowed ⟨[], by simp [step], by simp⟩

theorem normalize_of_isAbsolute {p : Path} (absolute : p.isAbsolute = true) (base : Path) :
    p.normalize base = ofLocation (resolve p.location) := by
  rw [normalize, if_pos absolute]

/-- Names below a base stay in the normal form. -/
theorem location_normalize {p base : Path} {names : List String} (absolute : p.isAbsolute = true)
    (h : p.location = base.location ++ names.map .normal) (base' : Path) :
    (p.normalize base').location = resolve base.location ++ names.map .normal := by
  rw [normalize_of_isAbsolute absolute, location_ofLocation (downward_resolve absolute), h, resolve,
    List.foldl_append, foldl_step_normal, List.reverse_append, List.reverse_reverse]
  rfl

/-- Seen from an absolute base, every path has a normal form of names from the root downwards. -/
theorem downward_normalize {base : Path} (h : base.isAbsolute = true) (p : Path) :
    ∃ location, p.normalize base = ofLocation location ∧ Downward location := by
  refine ⟨_, rfl, downward_resolve ?_⟩
  split
  · assumption
  · exact isAbsolute_join h p

/-- A normal form is its own normal form, from whatever base. -/
theorem normalize_normalize {base : Path} (h : base.isAbsolute = true) (p base' : Path) :
    (p.normalize base).normalize base' = p.normalize base := by
  obtain ⟨location, hp, downward⟩ := downward_normalize h p
  rw [hp, normalize, if_pos (isAbsolute_ofLocation downward), location_ofLocation downward,
    resolve_downward downward]

end DiagnosticWatch.Path
