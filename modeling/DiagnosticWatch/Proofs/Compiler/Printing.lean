import DiagnosticWatch.Proofs.Compiler.Paragraphs
import DiagnosticWatch.Proofs.Path.Normal
import Mathlib.Data.List.Infix

/-!
# Printed diagnostics are read back

A printed diagnostic is a file, a stamp and a message on one line. A stamp such as `(3,7): error
TS2322: ` starts with the only bracket that opens in it, so it cannot begin in the file and end
behind it. The reader takes the shortest file that a stamp follows; if there is no stamp in the
file, this is the file that was printed. Files may look like places and messages like whole
diagnostics.
-/

namespace DiagnosticWatch.Compiler

open Text (isDecimalDigit isBlank afterPrefix? afterPrefix?_eq_some_iff)

structure Numeral where
  digits : List Char
  nonempty : digits ≠ []
  decimal : ∀ c ∈ digits, isDecimalDigit c = true

/-- The place, category and code that stand between a file and a message. -/
structure Stamp where
  line : Numeral
  column : Numeral
  category : Category
  code : Numeral

namespace Stamp

def tag (s : Stamp) : List Char :=
  s.category.label.toList ++ " TS".toList ++ s.code.digits ++ ": ".toList

def text (s : Stamp) : List Char :=
  '(' :: (s.line.digits ++ ',' :: (s.column.digits ++ "): ".toList ++ s.tag))

end Stamp

namespace Numeral

theorem isDecimalDigit_of_isDigit {c : Char} (h : c.isDigit = true) : isDecimalDigit c = true := by
  rw [isDecimalDigit, CodeRanges.contains_iff]
  refine ⟨(0x30, 0x39), List.mem_cons_self, ?_⟩
  simpa [Char.isDigit, UInt32.le_iff_toNat_le] using h

/-- The usual way to write a number. -/
def ofNat (n : Nat) : Numeral where
  digits := Nat.toDigits 10 n
  nonempty := Nat.toDigits_ne_nil
  decimal _ h := isDecimalDigit_of_isDigit (Nat.isDigit_of_mem_toDigits (by decide) (by decide) h)

/-- A number of 32 bits is read back. -/
theorem word32_ofNat (n otherwise : UInt32) :
    Line.word32 (ofNat n.toNat).digits otherwise = n := by
  have digits : (Nat.toDigits 10 n.toNat).all Char.isDigit = true :=
    List.all_eq_true.2 fun c h => Nat.isDigit_of_mem_toDigits (by decide) (by decide) h
  have nonempty : (Nat.toDigits 10 n.toNat).isEmpty = false :=
    Bool.eq_false_iff.2 fun h => Nat.toDigits_ne_nil (List.isEmpty_iff.1 h)
  have value := Nat.ofDigitChars_toDigits (b := 10) (n := n.toNat) (by decide) (by decide)
  have read : Text.decimalValue? (Nat.toDigits 10 n.toNat) = some n.toNat := by
    rw [Text.decimalValue?, digits, nonempty, ← Nat.ofDigitChars_eq_foldl, value]
    rfl
  have fits : n.toNat ≤ UInt32.size - 1 := Nat.le_pred_of_lt n.toNat_lt_size
  have bounded : Text.boundedDecimal? (UInt32.size - 1) (ofNat n.toNat).digits = some n.toNat := by
    rw [Text.boundedDecimal?, ofNat, read, Option.filter_some, if_pos (decide_eq_true fits)]
  rw [Line.word32, bounded]
  exact UInt32.ofNat_toNat

/-- Behind its digits a number ends. -/
theorem digits?_append (n : Numeral) (rest : List Char)
    (ends : ∀ c ∈ rest.head?, isDecimalDigit c = false) :
    Line.digits? (n.digits ++ rest) = some (n.digits, rest) := by
  have nothing : rest.takeWhile isDecimalDigit = [] ∧ rest.dropWhile isDecimalDigit = rest := by
    cases rest with
    | nil => exact ⟨rfl, rfl⟩
    | cons c rest =>
        have other : ¬isDecimalDigit c = true := Bool.eq_false_iff.1 (ends c rfl)
        exact ⟨List.takeWhile_cons_of_neg other, List.dropWhile_cons_of_neg other⟩
  simp only [Line.digits?, List.takeWhile_append_of_pos n.decimal,
    List.dropWhile_append_of_pos n.decimal, nothing, List.append_nil]
  rw [if_neg fun empty => n.nonempty (List.isEmpty_iff.1 empty)]

theorem exists_of_digits? {cs ds rest : List Char} (h : Line.digits? cs = some (ds, rest)) :
    ∃ n : Numeral, n.digits = ds ∧ cs = ds ++ rest := by
  simp only [Line.digits?] at h
  split at h
  · cases h
  · rename_i nonempty
    cases h
    refine ⟨⟨_, fun empty => nonempty (List.isEmpty_iff.2 empty), ?_⟩, rfl, ?_⟩
    · exact fun c hc => List.mem_takeWhile_imp hc
    · exact List.takeWhile_append_dropWhile.symm

end Numeral

namespace Line

theorem category?_append (category : Category) (rest : List Char) :
    category? (category.label.toList ++ rest) = some (category, rest) := by
  cases category <;> rfl

theorem eq_append_of_category? {cs rest : List Char} {category : Category}
    (h : category? cs = some (category, rest)) : cs = category.label.toList ++ rest := by
  obtain ⟨⟨label, c⟩, hlabel, hrest⟩ := List.exists_of_findSome?_eq_some h
  obtain ⟨rest', hafter, hpair⟩ := Option.map_eq_some_iff.1 hrest
  obtain ⟨rfl, rfl⟩ := Prod.mk.inj hpair
  have written : ∀ l ∈ labels, l.1 = l.2.label := by decide
  have same : label = c.label := written _ hlabel
  rw [afterPrefix?_eq_some_iff.1 hafter, same]

theorem tag?_append (s : Stamp) {message : List Char} (oneLine : '\n' ∉ message) :
    tag? (s.tag ++ message) = some (s.category, s.code.digits, message) := by
  have code := s.code.digits?_append (": ".toList ++ message) (by simp; decide)
  have behind (lead rest : List Char) : afterPrefix? lead (lead ++ rest) = some rest :=
    afterPrefix?_eq_some_iff.2 rfl
  rw [tag?, Stamp.tag]
  simp only [List.append_assoc, category?_append, behind, code, Option.bind_eq_bind,
    Option.bind_some]
  rw [if_neg (by simpa using oneLine)]

theorem position?_append (s : Stamp) (rest : List Char) :
    position? (s.text ++ rest) = some (s.line.digits, s.column.digits, s.tag ++ rest) := by
  have line := s.line.digits?_append
    (",".toList ++ (s.column.digits ++ ("): ".toList ++ (s.tag ++ rest)))) (by simp; decide)
  have column := s.column.digits?_append ("): ".toList ++ (s.tag ++ rest)) (by simp; decide)
  have behind (lead rest : List Char) : afterPrefix? lead (lead ++ rest) = some rest :=
    afterPrefix?_eq_some_iff.2 rfl
  have written : s.text ++ rest = "(".toList ++ (s.line.digits ++ (",".toList ++
      (s.column.digits ++ ("): ".toList ++ (s.tag ++ rest))))) := by
    simp [Stamp.text]
  rw [written, position?]
  simp only [behind, line, column, Option.bind_eq_bind, Option.bind_some]

/-- A stamp and a message are read as what they say. -/
theorem tail?_append (s : Stamp) {message : List Char} (oneLine : '\n' ∉ message) :
    tail? (s.text ++ message) =
      some (word32 s.line.digits 1, word32 s.column.digits 1, s.category, word32 s.code.digits 0,
        String.ofList message) := by
  simp only [tail?, position?_append, tag?_append s oneLine, Option.bind_eq_bind, Option.bind_some]

/-- What is read as a stamp and a message starts with a stamp. -/
theorem exists_stamp_of_tail? {cs : List Char} (h : (tail? cs).isSome = true) :
    ∃ s : Stamp, s.text <+: cs := by
  obtain ⟨result, h⟩ := Option.isSome_iff_exists.1 h
  obtain ⟨⟨line, column, behind⟩, hposition, h⟩ := Option.bind_eq_some_iff.1 h
  obtain ⟨⟨category, code, message⟩, htag, -⟩ := Option.bind_eq_some_iff.1 h
  obtain ⟨first, open_, h⟩ := Option.bind_eq_some_iff.1 hposition
  obtain ⟨⟨line', second⟩, hline, h⟩ := Option.bind_eq_some_iff.1 h
  obtain ⟨third, comma, h⟩ := Option.bind_eq_some_iff.1 h
  obtain ⟨⟨column', fourth⟩, hcolumn, h⟩ := Option.bind_eq_some_iff.1 h
  obtain ⟨fifth, close, h⟩ := Option.bind_eq_some_iff.1 h
  cases h
  obtain ⟨⟨category', sixth⟩, hcategory, h⟩ := Option.bind_eq_some_iff.1 htag
  obtain ⟨seventh, mark, h⟩ := Option.bind_eq_some_iff.1 h
  obtain ⟨⟨code', eighth⟩, hcode, h⟩ := Option.bind_eq_some_iff.1 h
  obtain ⟨ninth, colon, -⟩ := Option.bind_eq_some_iff.1 h
  obtain ⟨line, rfl, rfl⟩ := Numeral.exists_of_digits? hline
  obtain ⟨column, rfl, rfl⟩ := Numeral.exists_of_digits? hcolumn
  obtain ⟨code, rfl, rfl⟩ := Numeral.exists_of_digits? hcode
  refine ⟨⟨line, column, category', code⟩, ninth, ?_⟩
  rw [afterPrefix?_eq_some_iff.1 open_, afterPrefix?_eq_some_iff.1 comma,
    afterPrefix?_eq_some_iff.1 close, eq_append_of_category? hcategory,
    afterPrefix?_eq_some_iff.1 mark, afterPrefix?_eq_some_iff.1 colon]
  simp [Stamp.text, Stamp.tag]

end Line

namespace Stamp

/-- No bracket opens in a stamp behind its first character. -/
theorem not_mem_tail (s : Stamp) : '(' ∉ s.text.tail := by
  have digits (n : Numeral) : '(' ∉ n.digits := fun h =>
    absurd (n.decimal _ h) (by decide +kernel)
  have label : '(' ∉ s.category.label.toList := by cases s.category <;> decide
  simp [text, tag, digits, label]

/-- A stamp that begins in a text ends in it, if a stamp comes next. -/
theorem text_prefix {t s : Stamp} {cs rest : List Char} (nonempty : cs ≠ [])
    (h : t.text <+: cs ++ (s.text ++ rest)) : t.text <+: cs := by
  obtain short | long := List.prefix_or_prefix_of_prefix h (List.prefix_append cs _)
  · exact short
  · obtain ⟨last, hlast⟩ := long
    cases last with
    | nil =>
        rw [← hlast, List.append_nil]
    | cons c last =>
        have straddles : c :: last <+: s.text ++ rest := by
          rwa [← hlast, List.prefix_append_right_inj] at h
        obtain rfl : c = '(' := (List.cons_prefix_cons.1 straddles).1
        refine absurd ?_ t.not_mem_tail
        rw [← hlast, List.tail_append_of_ne_nil nonempty]
        exact List.mem_append_right _ List.mem_cons_self

end Stamp

namespace Line

/-- Whether a stamp is in a line can be found out by reading from every place of it. -/
theorem unstamped_iff {cs : List Char} (oneLine : '\n' ∉ cs) :
    (∀ s : Stamp, ¬s.text <:+: cs) ↔ ∀ rest ∈ cs.tails, tail? rest = none := by
  constructor
  · intro unstamped rest hrest
    by_contra found
    obtain ⟨s, hs⟩ := exists_stamp_of_tail? (Option.isSome_iff_ne_none.2 found)
    exact unstamped s (hs.isInfix.trans ((List.mem_tails _ _).1 hrest).isInfix)
  · rintro unread s ⟨front, message, rfl⟩
    have suffix : s.text ++ message ∈ (front ++ s.text ++ message).tails := by
      rw [List.mem_tails, List.append_assoc]
      exact List.suffix_append _ _
    have messageLine : '\n' ∉ message := fun h => oneLine (List.mem_append_right _ h)
    exact Option.some_ne_none _ ((tail?_append s messageLine).symm.trans (unread _ suffix))

/-- The shortest file that a stamp follows is the one in front of the stamp, if there is none in
it. -/
theorem located?_append (s : Stamp) {file message : List Char} (nonempty : file ≠ [])
    (fileLine : '\n' ∉ file) (unstamped : ∀ t : Stamp, ¬t.text <:+: file)
    (messageLine : '\n' ∉ message) (name : List Char) :
    located? name (file ++ (s.text ++ message)) =
      some (.located (String.ofList (name.reverse ++ file)) (word32 s.line.digits 1)
        (word32 s.column.digits 1) s.category (word32 s.code.digits 0)
        (String.ofList message)) := by
  induction file generalizing name with
  | nil => exact absurd rfl nonempty
  | cons c file ih =>
      have first : c ≠ '\n' := fun h => fileLine (h ▸ List.mem_cons_self)
      rw [List.cons_append, located?, if_neg first]
      by_cases rest : file = []
      · rw [rest, List.nil_append, tail?_append s messageLine, List.reverse_cons]
      · have later : tail? (file ++ (s.text ++ message)) = none := by
          by_contra found
          obtain ⟨t, ht⟩ := exists_stamp_of_tail? (Option.isSome_iff_ne_none.2 found)
          have inside : t.text <:+: file := (Stamp.text_prefix rest ht).isInfix
          exact unstamped t (inside.trans (List.suffix_cons c file).isInfix)
        rw [later]
        have inner := ih rest (fun h => fileLine (List.mem_cons_of_mem _ h))
          (fun t ht => unstamped t (ht.trans (List.suffix_cons c file).isInfix)) (c :: name)
        simpa using inner

end Line

end DiagnosticWatch.Compiler

namespace DiagnosticWatch.Diagnostic

open Compiler Text

def stamp (d : Diagnostic) : Stamp where
  line := .ofNat d.line.toNat
  column := .ofNat d.column.toNat
  category := d.category
  code := .ofNat d.code.toNat

/-- A diagnostic that a line can show in full. -/
structure IsPrintable (d : Diagnostic) : Prop where
  absolute : d.file.isAbsolute = true
  normal : ∀ base, d.file.normalize base = d.file
  fileLine : '\n' ∉ d.file.text.toList
  unstamped : ∀ s : Stamp, ¬s.text <:+: d.file.text.toList
  start : d.start = none
  length : d.length = none
  messageLine : '\n' ∉ d.message.toList
  ends : ∃ c, d.message.toList.getLast? = some c ∧ isBlank c = false

theorem toList_render (d : Diagnostic) :
    d.render.toList = d.file.text.toList ++ (d.stamp.text ++ d.message.toList) := by
  simp [render, stamp, Stamp.text, Stamp.tag, Numeral.ofNat]

namespace IsPrintable

variable {d : Diagnostic}

theorem trimEnd_render (h : d.IsPrintable) : trimEnd d.render.toList = d.render.toList := by
  obtain ⟨c, hlast, visible⟩ := h.ends
  obtain ⟨front, hmessage⟩ := List.getLast?_eq_some_iff.1 hlast
  rw [toList_render, hmessage, ← List.append_assoc, ← List.append_assoc,
    trimEnd_append_of_not_blank visible]

/-- The line of a diagnostic says what the diagnostic says. -/
theorem said_render (h : d.IsPrintable) :
    Line.said d.render = .located d.file.text d.line d.column d.category d.code d.message := by
  obtain ⟨cs, hfile⟩ := Path.exists_text_of_isAbsolute h.absolute
  have nonempty : d.file.text.toList ≠ [] := by simp [hfile]
  have located := Line.located?_append d.stamp nonempty h.fileLine h.unstamped h.messageLine []
  rw [Line.said, h.trimEnd_render, toList_render, Line.classify, located]
  simp [stamp, Numeral.word32_ofNat]

theorem isHeader_render (h : d.IsPrintable) : (Line.said d.render).isHeader = true := by
  rw [h.said_render]
  rfl

theorem not_continues_render (h : d.IsPrintable) : Line.continues d.render = false := by
  obtain ⟨cs, hfile⟩ := Path.exists_text_of_isAbsolute h.absolute
  rw [Line.continues, h.trimEnd_render, toList_render, hfile]
  rfl

/-- A reader takes the diagnostic from its line as it was. -/
theorem headed?_render (h : d.IsPrintable) (r : Reader) :
    r.headed? (Line.said d.render) = some d := by
  have file : (⟨d.file.text⟩ : Path).normalize r.root = d.file := h.normal r.root
  rw [h.said_render, Reader.headed?, file]
  obtain ⟨_, _, _, _, _, _, start, length⟩ := d
  obtain rfl : start = none := h.start
  obtain rfl : length = none := h.length
  rfl

end IsPrintable

end DiagnosticWatch.Diagnostic

namespace DiagnosticWatch.Compiler

/-- Every printed diagnostic is a block. -/
theorem blocks_render {ds : List Diagnostic} (printable : ∀ d ∈ ds, d.IsPrintable) :
    blocks (ds.map Diagnostic.render) = ds.map fun d => ⟨.said d.render, []⟩ := by
  induction ds with
  | nil => rw [List.map_nil, blocks, List.map_nil]
  | cons d ds ih =>
      obtain ⟨first, rest⟩ := List.forall_mem_cons.1 printable
      have run : (ds.map Diagnostic.render).takeWhile Line.continues = [] ∧
          (ds.map Diagnostic.render).dropWhile Line.continues = ds.map Diagnostic.render := by
        cases ds with
        | nil => exact ⟨rfl, rfl⟩
        | cons e ds =>
            have fresh : ¬Line.continues e.render = true := by
              rw [(rest e List.mem_cons_self).not_continues_render]
              exact Bool.false_ne_true
            exact ⟨List.takeWhile_cons_of_neg fresh, List.dropWhile_cons_of_neg fresh⟩
      rw [List.map_cons, blocks, if_pos first.isHeader_render, run.1, run.2, ih rest, List.map_cons]

/-- Printed diagnostics that are fed to a reader line by line come out as they were, in their
order. -/
theorem Reader.feed_render {r : Reader} (clear : r.pending = none) {ds : List Diagnostic}
    (printable : ∀ d ∈ ds, d.IsPrintable) :
    let fed := runAll feed (ds.map Diagnostic.render) r
    fed.1.flatten ++ fed.2.finish.1.toList = ds.map .diagnostic := by
  intro fed
  rw [← outputs_eq_feed, outputs_eq_blocks clear, blocks_render printable, List.flatMap_map,
    List.map_eq_flatMap]
  refine List.flatMap_congr fun d hd => ?_
  have printed := printable d hd
  obtain ⟨_, -, silent⟩ := outputs_of_header (r := r) printed.isHeader_render
  rw [outputsOf, printed.headed?_render, silent, Option.map_some, Diagnostic.extended_nil]
  rfl

/-- Files that look like places, and messages that look like lines. -/
def lookalikes : List Diagnostic :=
  [{ file := ⟨"/w/(1,2): error TS/a.ts(3)"⟩, line := 0, column := 4294967295,
     category := .suggestion, code := 7, message := "/b.ts(1,2): error TS3: c" },
   { file := ⟨"/w/(1,2): error TS3:"⟩, line := 10, column := 200, category := .error, code := 0
     message := " TS1: 12:00:01 AM - d" }]

theorem Reader.feed_render_lookalikes :
    let r : Reader := { root := ⟨"/w"⟩, configPath := ⟨"/w/tsconfig.json"⟩ }
    r.pending = none ∧ (∀ d ∈ lookalikes, d.IsPrintable) ∧
      let fed := runAll feed (lookalikes.map Diagnostic.render) r
      fed.1.flatten ++ fed.2.finish.1.toList = lookalikes.map .diagnostic := by
  intro r
  have absolute : ∀ d ∈ lookalikes, d.file.isAbsolute = true := by decide +kernel
  have resolved : ∀ d ∈ lookalikes, Path.ofLocation (Path.resolve d.file.location) = d.file := by
    decide +kernel
  have fileLine : ∀ d ∈ lookalikes, '\n' ∉ d.file.text.toList := by decide +kernel
  have unread : ∀ d ∈ lookalikes, ∀ rest ∈ d.file.text.toList.tails, Line.tail? rest = none := by
    decide +kernel
  have whole : ∀ d ∈ lookalikes, d.start = none ∧ d.length = none ∧ '\n' ∉ d.message.toList := by
    decide +kernel
  have visible : ∀ d ∈ lookalikes, d.message.toList.getLast?.any (!Text.isBlank ·) = true := by
    decide +kernel
  have printable (d : Diagnostic) (h : d ∈ lookalikes) : d.IsPrintable := by
    obtain ⟨c, hlast, hc⟩ := (Option.any_eq_true _ _).1 (visible d h)
    exact
      { absolute := absolute d h
        normal := fun base => by rw [Path.normalize, if_pos (absolute d h), resolved d h]
        fileLine := fileLine d h
        unstamped := (Line.unstamped_iff (fileLine d h)).2 (unread d h)
        start := (whole d h).1
        length := (whole d h).2.1
        messageLine := (whole d h).2.2
        ends := ⟨c, hlast, by simpa using hc⟩ }
  exact ⟨rfl, printable, feed_render rfl printable⟩

end DiagnosticWatch.Compiler
