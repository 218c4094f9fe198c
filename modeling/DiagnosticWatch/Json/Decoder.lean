import DiagnosticWatch.Json.Skip

/-!
# Typed readers for JSON

A decoder reads one value of a certain type from the front of a text. Decoders are built from
readers for scalars, lists, records and tagged variants. Problems are found in the order in which
the text is read: a value of the wrong type is reported before a fault of the text behind it. A
problem of content is placed where the reading point is after the container around it has been
closed, if it can be closed there.

Containers nest to a limited depth; each decoder takes the number of levels that are left.
-/

namespace DiagnosticWatch.Json

/-- Reads one value, given how many levels of nesting are left. -/
abbrev Decoder (α : Type) := (levels : Nat) → List Char → Outcome α

/-- The nesting depth that texts may have. -/
def nestingLimit : Nat := 127

/-- Settles the place of a problem of content at the reading point. -/
def placed (r : Outcome α) : Outcome α :=
  r.mapError Failure.placed

/-- The failure of a value whose type is none of the expected ones. The value is read if it is a
scalar. -/
def mistyped (expected : String) (cs : List Char) : Failure :=
  let wrong (found : Found) (rest : List Char) : Failure :=
    (Failure.unplaced (.invalidType found expected) rest).placed
  let after (r : Outcome Unit) (found : Found) : Failure :=
    match r with
    | .error f => f
    | .ok (_, rest) => wrong found rest
  match cs with
  | 'n' :: rest => after (word "ull".toList rest) .null
  | 't' :: rest => after (word "rue".toList rest) (.bool true)
  | 'f' :: rest => after (word "alse".toList rest) (.bool false)
  | '"' :: rest =>
    match stringBody [] rest with
    | .error f => f
    | .ok (s, rest) => wrong (.text s) rest
  | '[' :: _ => wrong .sequence cs
  | '{' :: _ => wrong .map cs
  | _ =>
    if cs.head? = some '-' || startsWithDigit cs then
      match number cs with
      | .error f => f
      | .ok (n, rest) => wrong n.found rest
    else .ahead .expectedValue cs

namespace Decoder

def map (f : α → β) (d : Decoder α) : Decoder β := fun levels cs =>
  (d levels cs).map fun (a, rest) => (f a, rest)

def check (f : α → Except Problem β) (d : Decoder α) : Decoder β := fun levels cs =>
  match d levels cs with
  | .error e => .error e
  | .ok (a, rest) =>
    match f a with
    | .error p => .error (.unplaced p rest)
    | .ok b => .ok (b, rest)

/-- Reads a text; `expected` is what an error message asks for. -/
def textAs (expected : String) : Decoder String := fun _ cs =>
  match skipSpace cs with
  | [] => .error (.ahead .endInValue [])
  | '"' :: rest => stringBody [] rest
  | cs => .error (mistyped expected cs)

def text : Decoder String := textAs "a string"

def path : Decoder String := textAs "path string"

def bool : Decoder Bool := fun _ cs =>
  match skipSpace cs with
  | [] => .error (.ahead .endInValue [])
  | 't' :: rest => (word "rue".toList rest).map fun (_, rest) => (true, rest)
  | 'f' :: rest => (word "alse".toList rest).map fun (_, rest) => (false, rest)
  | cs => .error (mistyped "a boolean" cs)

/-- Reads a number of any form; `use` says what it stands for. -/
def numeral (expected : String) (use : Numeral → Except Problem α) : Decoder α := fun _ cs =>
  match skipSpace cs with
  | [] => .error (.ahead .endInValue [])
  | cs =>
    if cs.head? = some '-' || startsWithDigit cs then
      match number cs with
      | .error f => .error f
      | .ok (n, rest) =>
        match use n with
        | .error p => .error (Failure.unplaced p rest).placed
        | .ok a => .ok (a, rest)
    else .error (mistyped expected cs)

/-- Reads a natural number up to a limit. -/
def natural (limit : Nat) (expected : String) : Decoder Nat :=
  numeral expected fun n =>
    match n with
    | .natural n => if n ≤ limit then .ok n else .error (.invalidValue (.natural n) expected)
    | .negative n => .error (.invalidValue (.negative n) expected)
    | .real x => .error (.invalidType (.real x) expected)

def uint32 : Decoder UInt32 :=
  (natural (UInt32.size - 1) "u32").map UInt32.ofNat

def uint64 : Decoder Nat := natural wordLimit "u64"

def size : Decoder Nat := natural wordLimit "usize"

def float : Decoder Float :=
  numeral "f64" fun n => .ok <|
    match n with
    | .natural n => n.toFloat
    | .negative n => -n.toFloat
    | .real x => x

def unit : Decoder Unit := fun _ cs =>
  match skipSpace cs with
  | [] => .error (.ahead .endInValue [])
  | 'n' :: rest => word "ull".toList rest
  | cs => .error (mistyped "unit" cs)

def optional (d : Decoder α) : Decoder (Option α) := fun levels cs =>
  match skipSpace cs with
  | 'n' :: rest => (word "ull".toList rest).map fun (_, rest) => (none, rest)
  | cs => d.map some levels cs

def closeList (cs : List Char) : Outcome Unit :=
  match skipSpace cs with
  | [] => .error (.ahead .endInList [])
  | ']' :: rest => .ok ((), rest)
  | ',' :: rest =>
    match skipSpace rest with
    | ']' :: tail => .error (.ahead .trailingComma (']' :: tail))
    | tail => .error (.ahead .trailingCharacters tail)
  | cs => .error (.ahead .trailingCharacters cs)

def closeObject (cs : List Char) : Outcome Unit :=
  match skipSpace cs with
  | [] => .error (.ahead .endInObject [])
  | '}' :: rest => .ok ((), rest)
  | ',' :: rest => .error (.ahead .trailingComma (',' :: rest))
  | cs => .error (.ahead .trailingCharacters cs)

/-- Reads the inside of a container and closes it. A problem inside wins over one with the closing
bracket, but the container is closed before an unplaced problem gets its place. -/
def within (close : List Char → Outcome Unit) (inside : Decoder α) : Decoder α := fun levels cs =>
  match cs, levels with
  | [], _ => .error (.ahead .endInValue [])
  | _ :: _, 0 => .error (.ahead .recursionLimit cs)
  | _ :: rest, levels + 1 =>
    placed <|
      match inside levels rest with
      | .ok (a, rest) => (close rest).map fun (_, rest) => (a, rest)
      | .error f =>
        match close f.rest with
        | .ok (_, rest) => .error { f with rest }
        | .error f' => .error { f with rest := f'.rest }

/-- Whether a list goes on with another item: the text in front of the item, or of the bracket. -/
def nextItem (first : Bool) (cs : List Char) : Outcome Bool :=
  match skipSpace cs with
  | [] => .error (.ahead .endInList [])
  | ']' :: rest => .ok (false, ']' :: rest)
  | ',' :: rest =>
    if first then .ok (true, ',' :: rest)
    else match skipSpace rest with
      | [] => .error (.ahead .endInValue [])
      | ']' :: tail => .error (.ahead .trailingComma (']' :: tail))
      | tail => .ok (true, tail)
  | cs => if first then .ok (true, cs) else .error (.ahead .expectedListCommaOrEnd cs)

/-- Reads the items of a list up to its bracket. Every item takes at least one character, so the
count of characters bounds the rounds. -/
def items (item : List Char → Outcome α) :
    (rounds : Nat) → (first : Bool) → List Char → Outcome (List α)
  | 0, _, cs => .error (.here .endInList cs)
  | rounds + 1, first, cs =>
    match nextItem first cs with
    | .error f => .error f
    | .ok (false, rest) => .ok ([], rest)
    | .ok (true, rest) =>
      match item rest with
      | .error f => .error f
      | .ok (a, rest) => (items item rounds false rest).map fun (as, rest) => (a :: as, rest)

def list (d : Decoder α) : Decoder (List α) := fun levels cs =>
  match skipSpace cs with
  | [] => .error (.ahead .endInValue [])
  | '[' :: rest =>
    within closeList (fun levels cs => items (d levels) (cs.length + 1) true cs) levels
      ('[' :: rest)
  | cs => .error (mistyped "a sequence" cs)

/-- Whether an object goes on with another member: its name, or nothing in front of the bracket. -/
def nextName (first : Bool) (cs : List Char) : Outcome (Option String) :=
  let name (cs : List Char) : Outcome (Option String) :=
    match cs with
    | [] => .error (.ahead .endInValue [])
    | '"' :: rest => (stringBody [] rest).map fun (s, rest) => (some s, rest)
    | '}' :: rest => .error (.ahead .trailingComma ('}' :: rest))
    | cs => .error (.ahead .keyMustBeString cs)
  match skipSpace cs with
  | [] => .error (.ahead .endInObject [])
  | '}' :: rest => .ok (none, '}' :: rest)
  | ',' :: rest => if first then name (',' :: rest) else name (skipSpace rest)
  | cs => if first then name cs else .error (.ahead .expectedObjectCommaOrEnd cs)

/-- Passes over the colon between name and value. -/
def colon (cs : List Char) : Outcome Unit :=
  match skipSpace cs with
  | ':' :: rest => .ok ((), rest)
  | [] => .error (.ahead .endInObject [])
  | cs => .error (.ahead .expectedColon cs)

/-- One field of a record that is read into a draft of type `σ`. A field that `mayEnd` may be
missing where the record is written as a list. -/
structure Field (σ : Type) where
  name : String
  aliases : List String
  isSet : σ → Bool
  read : Decoder (σ → σ)
  mayEnd : Bool

/-- A field without other names. -/
def Field.of (name : String) (isSet : σ → Bool) (d : Decoder α) (set : α → σ → σ) : Field σ :=
  { name, aliases := [], isSet, read := d.map set, mayEnd := false }

/-- Reads the members of an object into a draft. A member that is no field is passed over, and a
field may come only once. -/
def members (fields : List (Field σ)) (levels : Nat) :
    (rounds : Nat) → (first : Bool) → σ → List Char → Outcome σ
  | 0, _, _, cs => .error (.here .endInObject cs)
  | rounds + 1, first, draft, cs =>
    match nextName first cs with
    | .error f => .error f
    | .ok (none, rest) => .ok (draft, rest)
    | .ok (some name, rest) =>
      match fields.find? fun field => field.name = name || field.aliases.contains name with
      | none =>
        match colon rest with
        | .error f => .error f
        | .ok (_, rest) =>
          match skipValue rest with
          | .error f => .error f
          | .ok (_, rest) => members fields levels rounds false draft rest
      | some field =>
        if field.isSet draft then .error (.unplaced (.duplicateField field.name) rest)
        else match colon rest with
          | .error f => .error f
          | .ok (_, rest) =>
            match field.read levels rest with
            | .error f => .error f
            | .ok (set, rest) => members fields levels rounds false (set draft) rest

/-- Reads the items of a list into the fields of a draft, in order. -/
def entries (whole : String) (levels : Nat) :
    (fields : List (Field σ)) → (read : Nat) → σ → List Char → Outcome σ
  | [], _, draft, cs => .ok (draft, cs)
  | field :: fields, read, draft, cs =>
    match nextItem (read = 0) cs with
    | .error f => .error f
    | .ok (false, rest) =>
      if field.mayEnd then entries whole levels fields (read + 1) draft rest
      else .error (.unplaced (.invalidLength read whole) rest)
    | .ok (true, rest) =>
      match field.read levels rest with
      | .error f => .error f
      | .ok (set, rest) => entries whole levels fields (read + 1) (set draft) rest

/-- A record: what error messages call it, its fields, the empty draft and how a draft is
completed. -/
structure Shape (σ α : Type) where
  title : String
  fields : List (Field σ)
  start : σ
  finish : σ → Except Problem α

/-- Reads a record, written as an object or as the list of its fields. -/
def record (shape : Shape σ α) : Decoder α := fun levels cs =>
  let finish (r : Outcome σ) : Outcome α :=
    match r with
    | .error f => .error f
    | .ok (draft, rest) =>
      match shape.finish draft with
      | .error p => .error (.unplaced p rest)
      | .ok a => .ok (a, rest)
  match skipSpace cs with
  | [] => .error (.ahead .endInValue [])
  | '[' :: rest =>
    let n := shape.fields.length
    let whole := shape.title ++ " with " ++ toString n ++
      (if n = 1 then " element" else " elements")
    within closeList (fun levels cs => finish (entries whole levels shape.fields 0 shape.start cs))
      levels ('[' :: rest)
  | '{' :: rest =>
    within closeObject
      (fun levels cs => finish (members shape.fields levels (cs.length + 1) true shape.start cs))
      levels ('{' :: rest)
  | cs => .error (mistyped shape.title cs)

def required (name : String) : Option α → Except Problem α
  | some a => .ok a
  | none => .error (.missingField name)

/-- How one variant is written: as its name alone, or as a name with a value. `kind` is what error
messages call a variant with a value. -/
inductive Variant (α : Type)
  | plain (a : α)
  | tagged (kind : String) (read : Decoder α)

/-- Finds a variant by its name, which has just been read. -/
def variant (variants : List (String × Variant α)) (name : String) (rest : List Char) :
    Except Failure (Variant α) :=
  match variants.lookup name with
  | some v => .ok v
  | none => .error (Failure.unplaced (.unknownVariant name (variants.map (·.1))) rest).placed

/-- Reads one of several variants: a name, or an object with one member. -/
def oneOf (variants : List (String × Variant α)) : Decoder α := fun levels cs =>
  match skipSpace cs with
  | [] => .error (.ahead .endInValue [])
  | '"' :: rest =>
    match stringBody [] rest with
    | .error f => .error f
    | .ok (name, rest) =>
      match variant variants name rest with
      | .error f => .error f
      | .ok (.plain a) => .ok (a, rest)
      | .ok (.tagged kind _) => .error (.unplaced (.invalidType .unitVariant kind) rest)
  | '{' :: rest =>
    match levels with
    | 0 => .error (.ahead .recursionLimit ('{' :: rest))
    | levels + 1 =>
      match skipSpace rest with
      | [] => .error (.ahead .endInObject [])
      | '}' :: tail => .error (.ahead .expectedValue ('}' :: tail))
      | '"' :: rest =>
        match stringBody [] rest with
        | .error f => .error f
        | .ok (name, rest) =>
          match variant variants name rest with
          | .error f => .error f
          | .ok v =>
            match colon rest with
            | .error f => .error f
            | .ok (_, rest) =>
              let read : Decoder α := match v with
                | .plain a => unit.map fun _ => a
                | .tagged _ read => read
              match read levels rest with
              | .error f => .error f
              | .ok (a, rest) =>
                match skipSpace rest with
                | '}' :: rest => .ok (a, rest)
                | [] => .error (.here .endInObject [])
                | rest => .error (.here .expectedValue rest)
      | cs => .error (.ahead .keyMustBeString cs)
  | cs => .error (.ahead .expectedValue cs)

/-- Reads the members of an object as they come. -/
def pairs (value : List Char → Outcome Value) :
    (rounds : Nat) → (first : Bool) → List Char → Outcome (List (String × Value))
  | 0, _, cs => .error (.here .endInObject cs)
  | rounds + 1, first, cs =>
    match nextName first cs with
    | .error f => .error f
    | .ok (none, rest) => .ok ([], rest)
    | .ok (some name, rest) =>
      match colon rest with
      | .error f => .error f
      | .ok (_, rest) =>
        match value rest with
        | .error f => .error f
        | .ok (v, rest) =>
          (pairs value rounds false rest).map fun (ms, rest) => ((name, v) :: ms, rest)

/-- Reads a value inside the levels that are left. -/
def any : Decoder Value
  | levels, cs =>
    match skipSpace cs with
    | [] => .error (.ahead .endInValue [])
    | 'n' :: rest => (word "ull".toList rest).map fun (_, rest) => (.null, rest)
    | 't' :: rest => (word "rue".toList rest).map fun (_, rest) => (.bool true, rest)
    | 'f' :: rest => (word "alse".toList rest).map fun (_, rest) => (.bool false, rest)
    | '"' :: rest => (stringBody [] rest).map fun (s, rest) => (.text s, rest)
    | '[' :: rest =>
      match levels with
      | 0 => .error (.ahead .recursionLimit ('[' :: rest))
      | levels + 1 =>
        match items (any levels) (rest.length + 1) true rest with
        | .error f => .error f
        | .ok (vs, rest) => (closeList rest).map fun (_, rest) => (.array vs, rest)
    | '{' :: rest =>
      match levels with
      | 0 => .error (.ahead .recursionLimit ('{' :: rest))
      | levels + 1 =>
        match pairs (any levels) (rest.length + 1) true rest with
        | .error f => .error f
        | .ok (ms, rest) => (closeObject rest).map fun (_, rest) => (.object ms, rest)
    | cs =>
      if cs.head? = some '-' || startsWithDigit cs then
        (number cs).map fun (n, rest) =>
          match n with
          | .natural n => (.natural n, rest)
          | .negative n => (.negative n, rest)
          | .real x => (.real x, rest)
      else .error (.ahead .expectedValue cs)

end Decoder

/-- Reads a whole text as one value; nothing but blanks may follow it. -/
def decode (d : Decoder α) (text : String) : Except Rejection α :=
  let cs := text.toList
  match d nestingLimit cs with
  | .error f => .error (f.inText cs)
  | .ok (a, rest) =>
    match skipSpace rest with
    | [] => .ok a
    | rest => .error ((Failure.ahead .trailingCharacters rest).inText cs)

end DiagnosticWatch.Json
