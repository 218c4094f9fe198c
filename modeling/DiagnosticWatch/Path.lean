import DiagnosticWatch.Text.Split

/-!
# Paths

A path keeps the spelling it was given, because answers print it. What it denotes is its `location`,
the list of its components: repeated and trailing separators, and every `.` but a leading one, leave
no component. Two spellings of one location are the same key everywhere, and locations are ordered
component by component, so `/a/b` comes before `/a-b`.

Paths are text: names that are no UTF-8 are left out, and `/` is the only separator.
-/

namespace DiagnosticWatch

/-- One step of a path, in the order in which locations compare. -/
inductive Component
  | root
  | current
  | parent
  | normal (name : String)
  deriving DecidableEq, Repr, Inhabited

namespace Component

def text : Component → String
  | root => "/"
  | current => "."
  | parent => ".."
  | normal name => name

/-- The kind of component; names come after all others. -/
def rank : Component → Nat
  | root => 0
  | current => 1
  | parent => 2
  | normal _ => 3

/-- The name, and the empty text for the components that are no names. -/
def name : Component → String
  | normal name => name
  | _ => ""

instance : Ord Component where
  compare := compareLex (compareOn rank) (compareOn name)

instance : Std.TransOrd Component :=
  inferInstanceAs (Std.TransCmp (compareLex (compareOn rank) (compareOn name)))

instance : Std.LawfulEqOrd Component where
  eq_of_compare {a b} h := by
    have h' : compareLex (compareOn rank) (compareOn name) a b = .eq := h
    rw [compareLex_eq_eq] at h'
    obtain ⟨hr, hn⟩ := h'
    have hr := Std.LawfulEqOrd.eq_of_compare (α := Nat) hr
    have hn := Std.LawfulEqOrd.eq_of_compare (α := String) hn
    cases a <;> cases b <;> simp_all [rank, name]

end Component

/-- What a path denotes, independent of its spelling. -/
abbrev Location := List Component

structure Path where
  text : String
  deriving DecidableEq, Repr, Inhabited

namespace Path

def isAbsolute (p : Path) : Bool :=
  p.text.toList.head? == some '/'

/-- The component of one part between separators; empty parts and `.` leave none. -/
def component? (part : List Char) : Option Component :=
  if part = [] ∨ part = ['.'] then none
  else if part = ['.', '.'] then some .parent
  else some (.normal (String.ofList part))

def componentsOf : List Char → Location
  | [] => []
  | '/' :: cs => .root :: (Text.split '/' cs).filterMap component?
  | cs =>
    match Text.split '/' cs with
    | ['.'] :: parts => .current :: parts.filterMap component?
    | parts => parts.filterMap component?

def location (p : Path) : Location :=
  componentsOf p.text.toList

/-- The usual spelling of a location. -/
def ofLocation : Location → Path
  | .root :: rest => ⟨"/" ++ Text.joinTexts '/' (rest.map Component.text)⟩
  | rest => ⟨Text.joinTexts '/' (rest.map Component.text)⟩

def same (p q : Path) : Bool :=
  decide (p.location = q.location)

/-- `other` as seen from `base`; an absolute path stands for itself. -/
def join (base other : Path) : Path :=
  if other.isAbsolute then other
  else if base.text.isEmpty || base.text.toList.getLast? == some '/' then ⟨base.text ++ other.text⟩
  else ⟨base.text ++ "/" ++ other.text⟩

/-- Parts that name nothing: empty ones and `.`. -/
def isSilent (part : List Char) : Bool :=
  part == [] || part == ['.']

/-- Drops the silent parts at the end, given in reverse; a first part that stands for the root or
for the directory itself stays. -/
def dropSilent : List (List Char) → List (List Char)
  | [] => []
  | [first] => [first]
  | part :: parts => if isSilent part then dropSilent parts else part :: parts

/-- The path without its last component, in the spelling of the path; the root and the empty path
have no parent. -/
def parent? (p : Path) : Option Path :=
  match p.location.getLast? with
  | none | some .root => none
  | some _ =>
    match dropSilent (Text.split '/' p.text.toList).reverse with
    | [] | [_] => some ⟨""⟩
    | _ :: parts =>
      match dropSilent parts with
      | [[]] => some ⟨"/"⟩
      | kept => some ⟨String.ofList (Text.join '/' kept.reverse)⟩

/-- The path, its parent, the parent of that, and so on. The list ends because each parent has one
component less. -/
def ancestors (p : Path) : List Path :=
  go p.location.length p
where
  go : Nat → Path → List Path
    | 0, p => [p]
    | n + 1, p => p :: match p.parent? with
      | none => []
      | some q => go n q

def fileName? (p : Path) : Option String :=
  match p.location.getLast? with
  | some (.normal name) => some name
  | _ => none

/-- The components of the path below `base`, if it lies there. -/
def below? (p base : Path) : Option Location :=
  go base.location p.location
where
  go : Location → Location → Option Location
    | [], rest => some rest
    | _ :: _, [] => none
    | b :: bs, c :: cs => if b = c then go bs cs else none

def names (location : Location) : List String :=
  location.filterMap fun
    | .normal name => some name
    | _ => none

/-- One step of the walk, over the components passed so far with the latest first. `..` takes back a
name and stays where there is none. -/
def step (passed : Location) : Component → Location
  | .current => passed
  | .parent => match passed with
    | .normal _ :: rest => rest
    | other => other
  | c => c :: passed

/-- The location without `.` and `..`, found without looking at any file. -/
def resolve (location : Location) : Location :=
  (location.foldl step []).reverse

/-- The normal form of a path, seen from `base`. -/
def normalize (p base : Path) : Path :=
  ofLocation (resolve (if p.isAbsolute then p else base.join p).location)

end Path

end DiagnosticWatch
