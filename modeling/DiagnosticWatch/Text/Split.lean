/-!
# Splitting a text at a separator

`split sep` cuts a text at every separator, so its parts are free of the separator and `join sep`
puts the text together again.
-/

namespace DiagnosticWatch.Text

/-- The parts between separators; a text without separator is its only part. -/
def split (sep : Char) : List Char → List (List Char)
  | [] => [[]]
  | c :: cs =>
    if c = sep then [] :: split sep cs
    else match split sep cs with
      | [] => [[c]]
      | part :: parts => (c :: part) :: parts

/-- The parts with one separator between neighbours. -/
def join (sep : Char) : List (List Char) → List Char
  | [] => []
  | [part] => part
  | part :: parts => part ++ sep :: join sep parts

theorem split_ne_nil (sep : Char) (cs : List Char) : split sep cs ≠ [] := by
  cases cs with
  | nil => simp [split]
  | cons c cs =>
    rw [split]
    split
    · simp
    · split <;> simp

@[simp] theorem join_split (sep : Char) (cs : List Char) : join sep (split sep cs) = cs := by
  induction cs with
  | nil => rfl
  | cons c cs ih =>
    rw [split]
    by_cases h : c = sep
    · subst h
      cases hs : split c cs with
      | nil => exact absurd hs (split_ne_nil c cs)
      | cons part parts => rw [hs] at ih; simp [join, ih]
    · cases hs : split sep cs with
      | nil => exact absurd hs (split_ne_nil sep cs)
      | cons part parts =>
        rw [hs] at ih
        cases parts with
        | nil => simp_all [join]
        | cons q qs => simp_all [join]

theorem not_mem_of_mem_split {sep : Char} {cs part : List Char} (h : part ∈ split sep cs) :
    sep ∉ part := by
  induction cs generalizing part with
  | nil => simp_all [split]
  | cons c cs ih =>
    rw [split] at h
    by_cases hc : c = sep
    · simp only [hc, if_true, List.mem_cons] at h
      obtain rfl | h := h
      · simp
      · exact ih h
    · cases hs : split sep cs with
      | nil => exact absurd hs (split_ne_nil sep cs)
      | cons q qs =>
        rw [hs] at h ih
        simp only [hc, if_false, List.mem_cons] at h
        obtain rfl | h := h
        · have hq := ih List.mem_cons_self
          simp only [List.mem_cons, not_or]
          exact ⟨fun e => hc e.symm, hq⟩
        · exact ih (List.mem_cons_of_mem _ h)

theorem split_of_not_mem {sep : Char} {cs : List Char} (h : sep ∉ cs) : split sep cs = [cs] := by
  induction cs with
  | nil => rfl
  | cons c cs ih =>
    obtain ⟨hc, hcs⟩ : sep ≠ c ∧ sep ∉ cs := by simpa using h
    rw [split, if_neg (Ne.symm hc), ih hcs]

theorem split_append_sep {sep : Char} {part : List Char} (h : sep ∉ part) (cs : List Char) :
    split sep (part ++ sep :: cs) = part :: split sep cs := by
  induction part with
  | nil => rw [List.nil_append, split, if_pos rfl]
  | cons c part ih =>
    obtain ⟨hc, hpart⟩ : sep ≠ c ∧ sep ∉ part := by simpa using h
    rw [List.cons_append, split, if_neg (Ne.symm hc), ih hpart]

/-- Splitting a text at one of its separators splits both sides. -/
theorem split_append (sep : Char) (before after : List Char) :
    split sep (before ++ sep :: after) = split sep before ++ split sep after := by
  induction before with
  | nil => exact if_pos rfl
  | cons c cs ih =>
      rw [List.cons_append, split, split, ih]
      by_cases hc : c = sep
      · rw [if_pos hc, if_pos hc]
        rfl
      · rw [if_neg hc, if_neg hc]
        cases hs : split sep cs with
        | nil => exact absurd hs (split_ne_nil sep cs)
        | cons part parts => rfl

/-- The parts at the end of a text are the parts of what stands behind one of its separators, or all
of them. -/
theorem eq_split_of_suffix {sep : Char} {cs : List Char} {parts : List (List Char)}
    (nonempty : parts ≠ []) (h : parts <:+ split sep cs) :
    ∃ after, parts = split sep after ∧ (cs = after ∨ ∃ before, cs = before ++ sep :: after) := by
  induction cs generalizing parts with
  | nil =>
      rw [split, List.suffix_cons_iff, List.suffix_nil] at h
      exact ⟨[], h.resolve_right nonempty, .inl rfl⟩
  | cons c cs ih =>
      by_cases hc : c = sep
      · subst hc
        rw [split, if_pos rfl, List.suffix_cons_iff] at h
        obtain h | h := h
        · exact ⟨c :: cs, by rw [split, if_pos rfl, h], .inl rfl⟩
        · obtain ⟨after, hparts, rfl | ⟨before, rfl⟩⟩ := ih nonempty h
          · exact ⟨cs, hparts, .inr ⟨[], rfl⟩⟩
          · exact ⟨after, hparts, .inr ⟨c :: before, rfl⟩⟩
      · cases hs : split sep cs with
        | nil => exact absurd hs (split_ne_nil sep cs)
        | cons part more =>
            have whole : split sep (c :: cs) = (c :: part) :: more := by
              rw [split, if_neg hc, hs]
            rw [whole, List.suffix_cons_iff] at h
            obtain h | h := h
            · exact ⟨c :: cs, by rw [h, whole], .inl rfl⟩
            · obtain ⟨after, rfl, rfl | ⟨before, rfl⟩⟩ :=
                ih nonempty (hs ▸ h.trans (List.suffix_cons part more))
              · have := h.length_le
                rw [hs, List.length_cons] at this
                omega
              · exact ⟨after, rfl, .inr ⟨c :: before, rfl⟩⟩

/-- A text has no separator, or it has a first one. -/
theorem sep_cases (sep : Char) (cs : List Char) :
    sep ∉ cs ∨ ∃ part rest, sep ∉ part ∧ cs = part ++ sep :: rest := by
  induction cs with
  | nil => exact .inl List.not_mem_nil
  | cons c cs ih =>
      by_cases hc : c = sep
      · exact .inr ⟨[], cs, List.not_mem_nil, by rw [hc]; rfl⟩
      · obtain h | ⟨part, rest, h, rfl⟩ := ih
        · exact .inl (by simpa [Ne.symm hc] using h)
        · exact .inr ⟨c :: part, rest, by simpa [Ne.symm hc] using h, rfl⟩

theorem append_sep_inj {sep : Char} {part part' rest rest' : List Char} (h : sep ∉ part)
    (h' : sep ∉ part') (e : part ++ sep :: rest = part' ++ sep :: rest') :
    part = part' ∧ rest = rest' := by
  have parts := congrArg (split sep) e
  rw [split_append_sep h, split_append_sep h'] at parts
  obtain rfl := (List.cons.inj parts).1
  exact ⟨rfl, (List.cons.inj (List.append_cancel_left e)).2⟩

/-- Parts without the separator can be told apart again. -/
theorem split_join {sep : Char} {parts : List (List Char)} (nonempty : parts ≠ [])
    (free : ∀ part ∈ parts, sep ∉ part) : split sep (join sep parts) = parts := by
  induction parts with
  | nil => exact absurd rfl nonempty
  | cons part parts ih =>
    have hpart := free part List.mem_cons_self
    cases parts with
    | nil => exact split_of_not_mem hpart
    | cons q qs =>
      rw [join, split_append_sep hpart]
      · rw [ih (by simp) fun r hr => free r (List.mem_cons_of_mem _ hr)]
      · simp

/-- A joined text has the characters of its parts, and separators. -/
theorem mem_join {sep c : Char} {parts : List (List Char)} (h : c ∈ join sep parts) :
    c = sep ∨ ∃ part ∈ parts, c ∈ part := by
  induction parts with
  | nil => cases h
  | cons part parts ih =>
    cases parts with
    | nil => exact .inr ⟨part, List.mem_cons_self, h⟩
    | cons q qs =>
      rw [join, List.mem_append, List.mem_cons] at h
      · obtain h | h | h := h
        · exact .inr ⟨part, List.mem_cons_self, h⟩
        · exact .inl h
        · exact (ih h).imp_right fun ⟨r, hr, hc⟩ => ⟨r, List.mem_cons_of_mem _ hr, hc⟩
      · simp

theorem subset_join {sep : Char} {parts : List (List Char)} {part : List Char} (h : part ∈ parts) :
    part ⊆ join sep parts := by
  induction parts with
  | nil => cases h
  | cons q qs ih =>
    cases qs with
    | nil =>
      obtain rfl := List.mem_singleton.1 h
      exact List.Subset.refl _
    | cons r rs =>
      rw [join]
      · obtain rfl | h := List.mem_cons.1 h
        · exact List.subset_append_left _ _
        · exact fun c hc => List.mem_append_right _ (List.mem_cons_of_mem _ (ih h hc))
      · simp

/-- Two neighbours can be joined before the rest. -/
theorem join_cons_cons (sep : Char) (p q : List Char) (parts : List (List Char)) :
    join sep ((p ++ sep :: q) :: parts) = join sep (p :: q :: parts) := by
  cases parts with
  | nil => rfl
  | cons r rs => simp [join]

/-- The texts of a list with a separator between neighbours. -/
def joinTexts (sep : Char) (parts : List String) : String :=
  String.ofList (join sep (parts.map String.toList))

@[simp] theorem joinTexts_singleton (sep : Char) (part : String) : joinTexts sep [part] = part :=
  String.ofList_toList

theorem joinTexts_cons_cons (sep : Char) (p q : String) (parts : List String) :
    joinTexts sep ((p ++ String.singleton sep ++ q) :: parts) =
      joinTexts sep (p :: q :: parts) := by
  have first : (p ++ String.singleton sep ++ q).toList = p.toList ++ sep :: q.toList := by
    simp [String.toList_append]
  rw [joinTexts, List.map_cons, first, join_cons_cons]
  rfl

end DiagnosticWatch.Text
