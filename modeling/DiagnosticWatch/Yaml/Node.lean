import DiagnosticWatch.Yaml.Token

/-!
# Nodes of a YAML text

The tokens of a text are read as documents, each of them one node. An alias is replaced by the
latest node that carries its name; inside that very node it stands for a collection that is not
finished.

Reading needs no more rounds than there are tokens, so the number of tokens bounds the recursion.
-/

namespace DiagnosticWatch.Yaml

/-- A node. A scalar is plain if nothing but its text tells what it means. -/
inductive Node
  | scalar (text : String) (isPlain : Bool)
  | sequence (items : List Node)
  | mapping (members : List (Node × Node))
  | unfinished
  deriving Inhabited

namespace Node

/-- A node that is not there. -/
def absent : Node := scalar "" true

end Node

/-- What is known while nodes are read: the handles of tags and the nodes with a name, latest
first. -/
structure Scope where
  handles : List (List Char) := []
  names : List (List Char × Node) := []
  deriving Inhabited

namespace Scope

/-- Whether a tag may refer to a handle. -/
def knows (s : Scope) (handle : List Char) : Bool :=
  handle.isEmpty || handle == ['!'] || handle == ['!', '!'] || s.handles.contains handle

def bind (s : Scope) (name : Option (List Char)) (node : Node) : Scope :=
  match name with
  | none => s
  | some name => { s with names := (name, node) :: s.names }

end Scope

/-- What a reader of nodes returns: what it read, the names that are known then, and the rest. -/
abbrev Reading (α : Type) := Option (α × Scope × List Token)

def sequence (r : Reading (List Node)) : Reading Node :=
  r.map fun (items, s, ts) => (.sequence items, s, ts)

def mapping (r : Reading (List (Node × Node))) : Reading Node :=
  r.map fun (members, s, ts) => (.mapping members, s, ts)

/-- The anchor and the tag in front of a node, in either order. -/
def properties (ts : List Token) : Option (List Char) × Option (List Char) × List Token :=
  match ts with
  | .anchor name :: .tag handle :: ts => (some name, some handle, ts)
  | .anchor name :: ts => (some name, none, ts)
  | .tag handle :: .anchor name :: ts => (some name, some handle, ts)
  | .tag handle :: ts => (none, some handle, ts)
  | ts => (none, none, ts)

/-- The places at which a node may stand: as a member of a block, where a sequence need not be
indented or where it does, or inside a flow collection. -/
inductive Place
  | blockMember
  | blockItem
  | flow
  deriving DecidableEq, Repr, Inhabited

/-- Whether an item of an indented sequence is missing in front of some tokens. -/
def lacksBlockItem : List Token → Bool
  | .entry :: _ | .blockEnd :: _ => true
  | _ => false

/-- Whether an item of a sequence that is not indented is missing. -/
def lacksLooseItem : List Token → Bool
  | .entry :: _ | .key :: _ | .value :: _ | .blockEnd :: _ => true
  | _ => false

/-- Whether a key or value of a block is missing. -/
def lacksBlockMember : List Token → Bool
  | .key :: _ | .value :: _ | .blockEnd :: _ => true
  | _ => false

/-- Whether a key or value inside a flow sequence is missing. -/
def lacksFlowItem : List Token → Bool
  | .value :: _ | .comma :: _ | .flowSequenceEnd :: _ => true
  | _ => false

/-- Whether a key or value of a flow mapping is missing. -/
def lacksFlowMember : List Token → Bool
  | .value :: _ | .comma :: _ | .flowMappingEnd :: _ => true
  | _ => false

/-- Passes over the comma in front of an item that is not the first. -/
def comma? (first : Bool) (ts : List Token) : Option (List Token) :=
  match first, ts with
  | true, ts => some ts
  | false, .comma :: ts => some ts
  | false, _ => none

mutual

def node? : (rounds : Nat) → Place → Scope → List Token → Reading Node
  | 0, _, _, _ => none
  | n + 1, place, s, ts =>
    match ts with
    | .alias name :: ts => (s.names.lookup name).map fun node => (node, s, ts)
    | ts =>
      let (name, handle, ts) := properties ts
      let inside := s.bind name .unfinished
      let named (r : Reading Node) : Reading Node :=
        r.map fun (node, s, ts) => (node, s.bind name node, ts)
      if !handle.all s.knows then none
      else match place, ts with
        | .blockMember, .entry :: _ => named (sequence (looseItems? n inside ts))
        | _, .scalar text isPlain :: ts =>
          named (some (.scalar (String.ofList text) isPlain, s, ts))
        | _, .flowSequence :: ts => named (sequence (flowItems? n true inside ts))
        | _, .flowMapping :: ts => named (mapping (flowMembers? n true inside ts))
        | .flow, ts => if name.isSome || handle.isSome then named (some (.absent, s, ts)) else none
        | _, .blockSequence :: ts => named (sequence (blockItems? n inside ts))
        | _, .blockMapping :: ts => named (mapping (blockMembers? n inside ts))
        | _, ts => if name.isSome || handle.isSome then named (some (.absent, s, ts)) else none

def optional? : (rounds : Nat) → (lacks : List Token → Bool) → Place → Scope → List Token →
    Reading Node
  | 0, _, _, _, _ => none
  | n + 1, lacks, place, s, ts => if lacks ts then some (.absent, s, ts) else node? n place s ts

/-- Reads the node behind the sign of a value, if the sign is there. -/
def value? : (rounds : Nat) → (lacks : List Token → Bool) → Place → Scope → List Token →
    Reading Node
  | 0, _, _, _, _ => none
  | n + 1, lacks, place, s, ts =>
    match ts with
    | .value :: ts => optional? n lacks place s ts
    | ts => some (.absent, s, ts)

def blockItems? : (rounds : Nat) → Scope → List Token → Reading (List Node)
  | 0, _, _ => none
  | n + 1, s, ts =>
    match ts with
    | .entry :: ts =>
      match optional? n lacksBlockItem .blockItem s ts with
      | some (item, s, ts) => (blockItems? n s ts).map fun (more, s, ts) => (item :: more, s, ts)
      | none => none
    | .blockEnd :: ts => some ([], s, ts)
    | _ => none

def looseItems? : (rounds : Nat) → Scope → List Token → Reading (List Node)
  | 0, _, _ => none
  | n + 1, s, ts =>
    match ts with
    | .entry :: ts =>
      match optional? n lacksLooseItem .blockItem s ts with
      | some (item, s, ts) => (looseItems? n s ts).map fun (more, s, ts) => (item :: more, s, ts)
      | none => none
    | ts => some ([], s, ts)

def blockMembers? : (rounds : Nat) → Scope → List Token → Reading (List (Node × Node))
  | 0, _, _ => none
  | n + 1, s, ts =>
    match ts with
    | .key :: ts =>
      match optional? n lacksBlockMember .blockMember s ts with
      | none => none
      | some (key, s, ts) =>
        match value? n lacksBlockMember .blockMember s ts with
        | none => none
        | some (value, s, ts) =>
          (blockMembers? n s ts).map fun (more, s, ts) => ((key, value) :: more, s, ts)
    | .blockEnd :: ts => some ([], s, ts)
    | _ => none

/-- Reads the items of a flow sequence up to its end. An item with the sign of a key is a mapping of
one member; where its key is missing, the token that shows it is passed over. -/
def flowItems? : (rounds : Nat) → (first : Bool) → Scope → List Token → Reading (List Node)
  | 0, _, _, _ => none
  | n + 1, first, s, ts =>
    match ts, comma? first ts with
    | .flowSequenceEnd :: ts, _ => some ([], s, ts)
    | _, none => none
    | _, some (.flowSequenceEnd :: ts) => some ([], s, ts)
    | _, some (.key :: ts) =>
      let key := if lacksFlowItem ts then some (.absent, s, ts.drop 1) else node? n .flow s ts
      match key with
      | none => none
      | some (key, s, ts) =>
        match value? n lacksFlowItem .flow s ts with
        | none => none
        | some (value, s, ts) =>
          (flowItems? n false s ts).map fun (more, s, ts) =>
            (.mapping [(key, value)] :: more, s, ts)
    | _, some ts =>
      match node? n .flow s ts with
      | none => none
      | some (item, s, ts) =>
        (flowItems? n false s ts).map fun (more, s, ts) => (item :: more, s, ts)

/-- Reads the members of a flow mapping up to its end. A member without the sign of a key has no
value. -/
def flowMembers? : (rounds : Nat) → (first : Bool) → Scope → List Token →
    Reading (List (Node × Node))
  | 0, _, _, _ => none
  | n + 1, first, s, ts =>
    match ts, comma? first ts with
    | .flowMappingEnd :: ts, _ => some ([], s, ts)
    | _, none => none
    | _, some (.flowMappingEnd :: ts) => some ([], s, ts)
    | _, some (.key :: ts) =>
      match optional? n lacksFlowMember .flow s ts with
      | none => none
      | some (key, s, ts) =>
        match value? n lacksFlowMember .flow s ts with
        | none => none
        | some (value, s, ts) =>
          (flowMembers? n false s ts).map fun (more, s, ts) => ((key, value) :: more, s, ts)
    | _, some ts =>
      match node? n .flow s ts with
      | none => none
      | some (key, s, ts) =>
        (flowMembers? n false s ts).map fun (more, s, ts) => ((key, .absent) :: more, s, ts)

end

/-- A document's worth of tokens read as one node. -/
def root? (s : Scope) (ts : List Token) : Option (Node × List Token) :=
  (node? (4 * ts.length + 4) .blockItem s ts).map fun (node, _, ts) => (node, ts)

/-- Reads the directives in front of a document: each at most once for the version and for every
handle, and only for versions that are understood. -/
def directives? (versionSeen : Bool) (handles : List (List Char)) :
    List Token → Option (List (List Char) × List Token)
  | .version major minor :: ts =>
    if versionSeen || major != 1 || !(minor == 1 || minor == 2) then none
    else directives? true handles ts
  | .tagHandle handle :: ts =>
    if handles.contains handle then none else directives? versionSeen (handle :: handles) ts
  | ts => some (handles, ts)

/-- Whether a document that has been announced holds nothing. -/
def isBlankDocument : List Token → Bool
  | [] | .version .. :: _ | .tagHandle .. :: _ | .documentStart :: _ | .documentEnd :: _ => true
  | _ => false

/-- Reads a document that is announced by a mark, behind its directives. -/
def announced? (handles : List (List Char)) : List Token → Option (Node × List Token)
  | .documentStart :: ts =>
    if isBlankDocument ts then some (.absent, ts) else root? { handles } ts
  | _ => none

/-- Reads the first document. -/
def document? (ts : List Token) : Option (Node × List Token) :=
  match ts with
  | .version .. :: _ | .tagHandle .. :: _ | .documentStart :: _ =>
    (directives? false [] ts).bind fun (handles, ts) => announced? handles ts
  | ts => root? {} ts

/-- Whether nothing but marks at the end of a document is left. -/
def isOver (ts : List Token) : Bool :=
  ts.all fun t => t matches .documentEnd

/-- The node of a text that holds one document, or none in the text that holds no document. -/
def load? (text : String) : Option (Option Node) :=
  match tokens? text.toList with
  | none => none
  | some [] => some none
  | some ts =>
    match document? ts with
    | some (node, rest) => if isOver rest then some (some node) else none
    | none => none

end DiagnosticWatch.Yaml
