import DiagnosticWatch.Json.Decoder
import DiagnosticWatch.Proofs.Json.Scalars

/-!
# Values are read back

A decoder reads a value back from its text if it stops right behind it, in front of any separator
(`Decoder.Reads`). Every way of building decoders has a rule that says when it does: what the parts
read back, the whole reads back, one level deeper for each container. A record is read member by
member, which fills its draft step by step (`Fills`).
-/

namespace DiagnosticWatch.Json

open Text (Interchange.quote)

namespace Value

mutual

/-- Whether there is no number with a fraction in a value. -/
def isExact : Value → Bool
  | real _ => false
  | array items => exactItems items
  | object members => exactMembers members
  | _ => true

/-- Whether there is none in any item. -/
def exactItems : List Value → Bool
  | [] => true
  | v :: vs => v.isExact && exactItems vs

/-- Whether there is none in any member. -/
def exactMembers : List (String × Value) → Bool
  | [] => true
  | (_, v) :: ms => v.isExact && exactMembers ms

end

theorem exactItems_map {α : Type} {write : α → Value} (exact : ∀ a, (write a).isExact = true)
    (as : List α) : exactItems (as.map write) = true := by
  induction as with
  | nil => rfl
  | cons a as ih => rw [List.map_cons, exactItems, exact, ih, Bool.and_self]

def moreItems (vs : List Value) : List Char :=
  vs.flatMap fun v => ',' :: v.compact

def moreMembers (ms : List (String × Value)) : List Char :=
  ms.flatMap fun m => ',' :: (Interchange.quote m.1 ++ ':' :: m.2.compact)

theorem compactItems_cons (v : Value) (vs : List Value) :
    compactItems (v :: vs) = v.compact ++ moreItems vs := by
  induction vs generalizing v with
  | nil => simp [compactItems, moreItems]
  | cons w vs ih =>
      rw [compactItems, ih w]
      · simp [moreItems]
      · simp

theorem compactMembers_cons (name : String) (v : Value) (ms : List (String × Value)) :
    compactMembers ((name, v) :: ms) =
      Interchange.quote name ++ ':' :: v.compact ++ moreMembers ms := by
  induction ms generalizing name v with
  | nil => simp [compactMembers, moreMembers]
  | cons m ms ih =>
      obtain ⟨name', w⟩ := m
      rw [compactMembers, ih name' w]
      · simp [moreMembers]
      · simp

end Value

/-- A text starts with a character that belongs to a value: no blank, separator or closing
bracket. -/
def Solid (cs : List Char) : Prop :=
  ∃ c rest, cs = c :: rest ∧ isSpace c = false ∧ c ≠ ',' ∧ c ≠ ']' ∧ c ≠ '}'

theorem isSpace_of_digit {c : Char} (digit : c.isDigit = true) : isSpace c = false := by
  rw [Bool.eq_false_iff]
  intro space
  simp only [isSpace, Bool.or_eq_true, beq_iff_eq] at space
  obtain ((rfl | rfl) | rfl) | rfl := space <;> cases digit

theorem skipSpace_cons {c : Char} (solid : isSpace c = false) (cs : List Char) :
    skipSpace (c :: cs) = c :: cs := by
  rw [skipSpace, List.dropWhile_cons, if_neg (by simp [solid])]

theorem Value.solid_of_isExact {v : Value} (exact : v.isExact = true) : Solid v.compact := by
  cases v with
  | null => exact ⟨'n', _, rfl, by decide⟩
  | bool b => cases b <;> exact ⟨_, _, rfl, by decide⟩
  | natural n =>
      obtain ⟨c, cs, written, digit⟩ := toString_eq_cons n
      refine ⟨c, cs, written, isSpace_of_digit digit, ?_⟩
      refine ⟨?_, ?_, ?_⟩ <;> rintro rfl <;> cases digit
  | negative n => exact ⟨'-', (toString n).toList, by simp [compact, scalar], by decide⟩
  | real x => cases exact
  | text s => exact ⟨'"', _, rfl, by decide⟩
  | array vs => exact ⟨'[', _, rfl, by decide⟩
  | object ms => exact ⟨'{', _, rfl, by decide⟩

/-- Only `null` starts with its letter. -/
theorem Value.head_ne_of_present {v : Value} (exact : v.isExact = true) (present : v ≠ .null) :
    v.compact.head? ≠ some 'n' := by
  cases v with
  | null => exact absurd rfl present
  | bool b => cases b <;> decide
  | natural n =>
      obtain ⟨c, cs, written, digit⟩ := toString_eq_cons n
      have text : (Value.natural n).compact = c :: cs := written
      rw [text]
      rintro ⟨⟩
      cases digit
  | negative n => simp [compact, scalar]
  | real x => cases exact
  | text s => simp [compact, scalar, Interchange.quote]
  | array vs => simp [compact]
  | object ms => simp [compact]

mutual

/-- A value without fractions takes one line, whatever its texts hold. -/
theorem Value.newline_not_mem_compact : (v : Value) → v.isExact = true → '\n' ∉ v.compact
  | .null, _ => by decide
  | .bool b, _ => by cases b <;> decide
  | .natural n, _ => newline_not_mem_toString n
  | .negative n, _ => by simpa [Value.compact, Value.scalar] using newline_not_mem_toString n
  | .real _, exact => by cases exact
  | .text s, _ => newline_not_mem_quote s
  | .array vs, exact => by
      simpa [Value.compact] using Value.newline_not_mem_compactItems vs exact
  | .object ms, exact => by
      simpa [Value.compact] using Value.newline_not_mem_compactMembers ms exact

theorem Value.newline_not_mem_compactItems : (vs : List Value) → Value.exactItems vs = true →
    '\n' ∉ Value.compactItems vs
  | [], _ => by simp [Value.compactItems]
  | [v], exact => by
      rw [Value.exactItems, Bool.and_eq_true] at exact
      exact Value.newline_not_mem_compact v exact.1
  | v :: w :: vs, exact => by
      rw [Value.exactItems, Bool.and_eq_true] at exact
      have first := Value.newline_not_mem_compact v exact.1
      have others := Value.newline_not_mem_compactItems (w :: vs) exact.2
      simp [Value.compactItems, first, others]

theorem Value.newline_not_mem_compactMembers : (ms : List (String × Value)) →
    Value.exactMembers ms = true → '\n' ∉ Value.compactMembers ms
  | [], _ => by simp [Value.compactMembers]
  | [(name, v)], exact => by
      rw [Value.exactMembers, Bool.and_eq_true] at exact
      have value := Value.newline_not_mem_compact v exact.1
      simp [Value.compactMembers, newline_not_mem_quote, value]
  | (name, v) :: m :: ms, exact => by
      rw [Value.exactMembers, Bool.and_eq_true] at exact
      have first := Value.newline_not_mem_compact v exact.1
      have others := Value.newline_not_mem_compactMembers (m :: ms) exact.2
      simp [Value.compactMembers, newline_not_mem_quote, first, others]

end

/-- Items behind a first one end with a separator in front of each, and with the bracket behind
them. -/
theorem boundary_moreItems (vs : List Value) (rest : List Char) :
    Boundary (Value.moreItems vs ++ ']' :: rest) := by
  cases vs <;> simp [Boundary, Value.moreItems]

theorem boundary_moreMembers (ms : List (String × Value)) (rest : List Char) :
    Boundary (Value.moreMembers ms ++ '}' :: rest) := by
  cases ms <;> simp [Boundary, Value.moreMembers]

namespace Decoder

variable {α β σ : Type} {d : Decoder α} {depth : Nat} {cs : List Char} {a : α}

/-- A decoder reads a value back from a text: with enough levels left it takes the text and nothing
of what may stand behind it. -/
def Reads (d : Decoder α) (depth : Nat) (cs : List Char) (a : α) : Prop :=
  ∀ levels rest, depth ≤ levels → Boundary rest → d levels (cs ++ rest) = .ok (a, rest)

theorem Reads.mono {deeper : Nat} (h : d.Reads depth cs a) (le : depth ≤ deeper) :
    d.Reads deeper cs a := by
  intro levels rest enough boundary
  exact h levels rest (Nat.le_trans le enough) boundary

theorem Reads.map (h : d.Reads depth cs a) (f : α → β) : (d.map f).Reads depth cs (f a) := by
  intro levels rest enough boundary
  rw [Decoder.map, h levels rest enough boundary]
  rfl

theorem Reads.check (h : d.Reads depth cs a) {f : α → Except Problem β} {b : β}
    (passes : f a = .ok b) : (d.check f).Reads depth cs b := by
  intro levels rest enough boundary
  rw [Decoder.check, h levels rest enough boundary]
  simp only [passes]

theorem textAs_reads (expected s : String) :
    (textAs expected).Reads 0 (Value.text s).compact s := by
  intro levels rest _ _
  obtain ⟨cs, quoted, body⟩ := stringBody_quote s rest
  have written : (Value.text s).compact ++ rest = '"' :: cs := quoted
  rw [written, textAs, skipSpace_cons (by decide)]
  exact body

theorem any_reads_text (s : String) : any.Reads 0 (Value.text s).compact (.text s) := by
  intro levels rest _ _
  obtain ⟨cs, quoted, body⟩ := stringBody_quote s rest
  have written : (Value.text s).compact ++ rest = '"' :: cs := quoted
  have here : skipSpace ('"' :: cs) = '"' :: cs := skipSpace_cons (by decide) cs
  rw [written, any.eq_def]
  simp only [here, body]
  rfl

theorem bool_reads (b : Bool) : bool.Reads 0 (Value.bool b).compact b := by
  intro levels rest _ _
  cases b <;> rfl

theorem natural_reads {n limit : Nat} (inLimit : n ≤ limit) (inWord : n ≤ wordLimit)
    (expected : String) : (natural limit expected).Reads 0 (Value.natural n).compact n := by
  intro levels rest _ boundary
  obtain ⟨c, cs, written, digit⟩ := toString_eq_cons n
  have scanned := number_toString inWord boundary
  have text : (Value.natural n).compact ++ rest = c :: (cs ++ rest) := by
    have compact : (Value.natural n).compact = (toString n).toList := rfl
    rw [compact, written, List.cons_append]
  rw [written, List.cons_append] at scanned
  rw [text, natural, numeral, skipSpace_cons (isSpace_of_digit digit)]
  simp [startsWithDigit, digit, scanned, inLimit]

theorem uint32_reads (n : UInt32) : uint32.Reads 0 (Value.natural n.toNat).compact n := by
  have small : n.toNat ≤ UInt32.size - 1 := by
    have bound := n.toNat_lt
    simp only [UInt32.size]
    omega
  have read := (natural_reads small (Nat.le_trans small (by decide)) "u32").map UInt32.ofNat
  rwa [UInt32.ofNat_toNat] at read

theorem optional_reads_none (d : Decoder α) : d.optional.Reads 0 Value.null.compact none := by
  intro levels rest _ _
  rfl

/-- A value that is there is not taken for the word that says it is not. -/
theorem optional_reads_some {v : Value} (h : d.Reads depth v.compact a)
    (exact : v.isExact = true) (present : v ≠ .null) :
    d.optional.Reads depth v.compact (some a) := by
  intro levels rest enough boundary
  have read := (h.map some) levels rest enough boundary
  obtain ⟨c, tail, written, blank, -⟩ := Value.solid_of_isExact exact
  have other : c ≠ 'n' := by
    rintro rfl
    exact Value.head_ne_of_present exact present (by rw [written]; rfl)
  rw [written] at read ⊢
  rw [optional, List.cons_append, skipSpace_cons blank]
  split
  · rename_i taken
    exact absurd (List.cons.inj taken).1 other
  · exact read

theorem nextItem_first {cs : List Char} (solid : Solid cs) (rest : List Char) :
    nextItem true (cs ++ rest) = .ok (true, cs ++ rest) := by
  obtain ⟨c, tail, rfl, blank, comma, bracket, -⟩ := solid
  rw [List.cons_append, nextItem, skipSpace_cons blank]
  split <;> simp_all

theorem nextItem_comma {cs : List Char} (solid : Solid cs) (rest : List Char) :
    nextItem false (',' :: (cs ++ rest)) = .ok (true, cs ++ rest) := by
  obtain ⟨c, tail, rfl, blank, comma, bracket, -⟩ := solid
  rw [List.cons_append, nextItem, skipSpace_cons (by decide)]
  simp only [Bool.false_eq_true, if_false]
  rw [skipSpace_cons blank]
  split <;> simp_all

/-- The items behind a first one are read up to the bracket. -/
theorem items_moreItems {write : α → Value} {as : List α}
    (reads : ∀ a ∈ as, d.Reads depth (write a).compact a)
    (exact : ∀ a ∈ as, (write a).isExact = true) {levels rounds : Nat} (enough : depth ≤ levels)
    (long : as.length < rounds) (rest : List Char) :
    items (d levels) rounds false (Value.moreItems (as.map write) ++ ']' :: rest) =
      .ok (as, ']' :: rest) := by
  induction as generalizing rounds with
  | nil =>
      cases rounds with
      | zero => cases long
      | succ rounds => rfl
  | cons a as ih =>
      cases rounds with
      | zero => cases long
      | succ rounds =>
          have boundary := boundary_moreItems (as.map write) rest
          have read := reads a List.mem_cons_self levels _ enough boundary
          have solid := Value.solid_of_isExact (exact a List.mem_cons_self)
          have others := ih (fun b h => reads b (List.mem_cons_of_mem a h))
            (fun b h => exact b (List.mem_cons_of_mem a h)) (Nat.lt_of_succ_lt_succ long)
          have text : Value.moreItems ((a :: as).map write) ++ ']' :: rest =
              ',' :: ((write a).compact ++ (Value.moreItems (as.map write) ++ ']' :: rest)) := by
            simp [Value.moreItems]
          rw [text, items, nextItem_comma solid]
          simp only [read, others]
          rfl

theorem length_le_moreItems (vs : List Value) : vs.length ≤ (Value.moreItems vs).length := by
  induction vs with
  | nil => exact Nat.le_refl 0
  | cons v vs ih =>
      simp only [Value.moreItems, List.flatMap_cons, List.length_append, List.length_cons] at ih ⊢
      omega

theorem within_list {inside : Decoder α} {levels : Nat} {cs rest : List Char}
    (read : inside levels (cs ++ ']' :: rest) = .ok (a, ']' :: rest)) :
    within closeList inside (levels + 1) ('[' :: (cs ++ ']' :: rest)) = .ok (a, rest) := by
  simp only [within, read]
  rfl

/-- A list is read back, one level below its items. -/
theorem list_reads {write : α → Value} {as : List α}
    (reads : ∀ a ∈ as, d.Reads depth (write a).compact a)
    (exact : ∀ a ∈ as, (write a).isExact = true) :
    (list d).Reads (depth + 1) (Value.array (as.map write)).compact as := by
  intro levels rest enough _
  obtain ⟨levels, rfl⟩ : ∃ l, levels = l + 1 := ⟨levels - 1, by omega⟩
  have text : (Value.array (as.map write)).compact ++ rest =
      '[' :: (Value.compactItems (as.map write) ++ ']' :: rest) := by
    simp [Value.compact]
  rw [text, list, skipSpace_cons (by decide)]
  apply within_list
  cases as with
  | nil => rfl
  | cons a as =>
      have solid := Value.solid_of_isExact (exact a List.mem_cons_self)
      have boundary := boundary_moreItems (as.map write) rest
      have read := reads a List.mem_cons_self levels _ (Nat.le_of_succ_le_succ enough) boundary
      have long : as.length < ((write a).compact ++
          (Value.moreItems (as.map write) ++ ']' :: rest)).length := by
        have short := length_le_moreItems (as.map write)
        simp only [List.length_map, List.length_append, List.length_cons] at short ⊢
        omega
      have others := items_moreItems (fun b h => reads b (List.mem_cons_of_mem a h))
        (fun b h => exact b (List.mem_cons_of_mem a h)) (Nat.le_of_succ_le_succ enough) long rest
      rw [List.map_cons, Value.compactItems_cons, List.append_assoc, items,
        nextItem_first solid]
      simp only [read, others]
      rfl

/-- Members fill a draft: each one is of a field that has not been set, which reads its value
back. -/
inductive Fills (fields : List (Field σ)) (depth : Nat) : σ → List (String × Value) → σ → Prop
  | nil {draft : σ} : Fills fields depth draft [] draft
  | cons {draft draft' : σ} {set : σ → σ} {name : String} {v : Value}
      {ms : List (String × Value)} {field : Field σ}
      (found : (fields.find? fun f => f.name = name || f.aliases.contains name) = some field)
      (unset : field.isSet draft = false) (read : field.read.Reads depth v.compact set)
      (others : Fills fields depth (set draft) ms draft') :
      Fills fields depth draft ((name, v) :: ms) draft'

/-- A member of a field without other names. -/
theorem Fills.field {fields : List (Field σ)} {draft draft' : σ} {isSet : σ → Bool}
    {set : α → σ → σ} {name : String} {v : Value} {ms : List (String × Value)}
    (found : (fields.find? fun f => f.name = name || f.aliases.contains name) =
      some (.of name isSet d set))
    (unset : isSet draft = false) (read : d.Reads depth v.compact a)
    (others : Fills fields depth (set a draft) ms draft') :
    Fills fields depth draft ((name, v) :: ms) draft' :=
  .cons found unset (read.map set) others

theorem Fills.append {fields : List (Field σ)} {draft draft' draft'' : σ}
    {ms ms' : List (String × Value)} (first : Fills fields depth draft ms draft')
    (second : Fills fields depth draft' ms' draft'') :
    Fills fields depth draft (ms ++ ms') draft'' := by
  induction first with
  | nil => exact second
  | cons found unset read _ ih => exact .cons found unset read (ih second)

theorem nextName_first (name : String) (rest : List Char) :
    nextName true (Interchange.quote name ++ rest) = .ok (some name, rest) := by
  obtain ⟨cs, quoted, body⟩ := stringBody_quote name rest
  rw [quoted, nextName, skipSpace_cons (by decide)]
  change (stringBody [] cs).map (fun read => (some read.1, read.2)) = _
  rw [body]
  rfl

theorem nextName_comma (name : String) (rest : List Char) :
    nextName false (',' :: (Interchange.quote name ++ rest)) = .ok (some name, rest) := by
  obtain ⟨cs, quoted, body⟩ := stringBody_quote name rest
  rw [quoted, nextName, skipSpace_cons (by decide)]
  simp only [Bool.false_eq_true, if_false]
  rw [skipSpace_cons (by decide)]
  simp only [body]
  rfl

/-- The members behind a first one are read up to the bracket. -/
theorem members_moreMembers {fields : List (Field σ)} {draft draft' : σ}
    {ms : List (String × Value)} (fills : Fills fields depth draft ms draft')
    {levels rounds : Nat} (enough : depth ≤ levels) (long : ms.length < rounds)
    (rest : List Char) :
    members fields levels rounds false draft (Value.moreMembers ms ++ '}' :: rest) =
      .ok (draft', '}' :: rest) := by
  induction fills generalizing rounds with
  | nil =>
      cases rounds with
      | zero => cases long
      | succ rounds => rfl
  | @cons draft draft' set name v ms field found unset read others ih =>
      cases rounds with
      | zero => cases long
      | succ rounds =>
          have boundary := boundary_moreMembers ms rest
          have value := read levels _ enough boundary
          have text : Value.moreMembers ((name, v) :: ms) ++ '}' :: rest =
              ',' :: (Interchange.quote name ++
                ':' :: (v.compact ++ (Value.moreMembers ms ++ '}' :: rest))) := by
            simp [Value.moreMembers]
          rw [text, members, nextName_comma]
          simp only [found, unset, Bool.false_eq_true, if_false, colon,
            skipSpace_cons (c := ':') (by decide), value]
          exact ih (Nat.lt_of_succ_lt_succ long)

theorem length_le_moreMembers (ms : List (String × Value)) :
    ms.length ≤ (Value.moreMembers ms).length := by
  induction ms with
  | nil => exact Nat.le_refl 0
  | cons m ms ih =>
      simp only [Value.moreMembers, List.flatMap_cons, List.length_append, List.length_cons] at ih ⊢
      omega

theorem within_object {inside : Decoder α} {levels : Nat} {cs rest : List Char}
    (read : inside levels (cs ++ '}' :: rest) = .ok (a, '}' :: rest)) :
    within closeObject inside (levels + 1) ('{' :: (cs ++ '}' :: rest)) = .ok (a, rest) := by
  simp only [within, read]
  rfl

/-- All members are read up to the bracket. -/
theorem members_compactMembers {fields : List (Field σ)} {draft draft' : σ}
    {ms : List (String × Value)} (fills : Fills fields depth draft ms draft')
    {levels : Nat} (enough : depth ≤ levels) (rest : List Char) :
    members fields levels ((Value.compactMembers ms ++ '}' :: rest).length + 1) true draft
        (Value.compactMembers ms ++ '}' :: rest) =
      .ok (draft', '}' :: rest) := by
  cases fills with
  | nil => rfl
  | @cons _ _ set name v ms field found unset read others =>
      have boundary := boundary_moreMembers ms rest
      have value := read levels _ enough boundary
      have text : Value.compactMembers ((name, v) :: ms) ++ '}' :: rest =
          Interchange.quote name ++
            ':' :: (v.compact ++ (Value.moreMembers ms ++ '}' :: rest)) := by
        simp [Value.compactMembers_cons]
      have long : ms.length < (Value.compactMembers ((name, v) :: ms) ++ '}' :: rest).length := by
        have short := length_le_moreMembers ms
        rw [text]
        simp only [List.length_append, List.length_cons]
        omega
      have more := members_moreMembers others enough long rest
      rw [text] at more ⊢
      rw [members, nextName_first]
      simp only [found, unset, Bool.false_eq_true, if_false, colon,
        skipSpace_cons (c := ':') (by decide), value]
      exact more

/-- A record is read back, one level below its members. -/
theorem record_reads {shape : Shape σ α} {draft : σ} {ms : List (String × Value)}
    (fills : Fills shape.fields depth shape.start ms draft) (done : shape.finish draft = .ok a) :
    (record shape).Reads (depth + 1) (Value.object ms).compact a := by
  intro levels rest enough _
  obtain ⟨levels, rfl⟩ : ∃ l, levels = l + 1 := ⟨levels - 1, by omega⟩
  have text : (Value.object ms).compact ++ rest =
      '{' :: (Value.compactMembers ms ++ '}' :: rest) := by
    simp [Value.compact]
  have filled := members_compactMembers fills (Nat.le_of_succ_le_succ enough) rest
  rw [text, record, skipSpace_cons (by decide)]
  apply within_object
  simp only [filled, done]

/-- A variant without a value is read from its name. -/
theorem oneOf_reads_plain {variants : List (String × Variant α)} {name : String}
    (known : variants.lookup name = some (.plain a)) :
    (oneOf variants).Reads 0 (Value.text name).compact a := by
  intro levels rest _ _
  obtain ⟨cs, quoted, body⟩ := stringBody_quote name rest
  have written : (Value.text name).compact ++ rest = '"' :: cs := quoted
  rw [written, oneOf, skipSpace_cons (by decide)]
  simp only [body, variant, known]

/-- A variant with a value is read from an object with one member, one level above the value. -/
theorem oneOf_reads_tagged {variants : List (String × Variant α)} {name kind : String}
    (known : variants.lookup name = some (.tagged kind d)) {v : Value}
    (read : d.Reads depth v.compact a) :
    (oneOf variants).Reads (depth + 1) (Value.object [(name, v)]).compact a := by
  intro levels rest enough _
  obtain ⟨levels, rfl⟩ : ∃ l, levels = l + 1 := ⟨levels - 1, by omega⟩
  obtain ⟨cs, quoted, body⟩ := stringBody_quote name (':' :: (v.compact ++ '}' :: rest))
  have text : (Value.object [(name, v)]).compact ++ rest = '{' :: '"' :: cs := by
    rw [← quoted]
    simp [Value.compact, Value.compactMembers]
  have value := read levels ('}' :: rest) (Nat.le_of_succ_le_succ enough) (by simp [Boundary])
  rw [text, oneOf, skipSpace_cons (by decide)]
  simp only [skipSpace_cons (c := '"') (by decide), body, variant, known, colon,
    skipSpace_cons (c := ':') (by decide), value, skipSpace_cons (c := '}') (by decide)]

end Decoder

/-- A line that carries a value is decoded to what its decoder reads back. -/
theorem decode_line {α : Type} {d : Decoder α} {depth : Nat} {v : Value} {a : α}
    (read : d.Reads depth v.compact a) (shallow : depth ≤ nestingLimit) :
    decode d (v.render ++ "\n") = .ok a := by
  have text : (v.render ++ "\n").toList = v.compact ++ ['\n'] := by
    simp [Value.render]
  have read := read nestingLimit ['\n'] shallow (by simp [Boundary])
  simp only [decode, text, read]
  rfl

end DiagnosticWatch.Json
