import DiagnosticWatch.Json.Scan

/-!
# Passing over a value

The value of a member that nobody asked for is passed over. It has to be well formed, but it may
nest as deep as it likes, its strings may hold surrogates without partner, and its numbers may be of
any size.
-/

namespace DiagnosticWatch.Json

open Text (Shorter)

def skipString : (cs : List Char) → Except Failure (Shorter cs)
  | [] => .error (.here .endInString [])
  | c :: cs =>
    if c = '"' then .ok ⟨cs, Nat.lt_succ_self _⟩
    else if c = '\\' then
      match cs with
      | [] => .error (.here .endInString [])
      | e :: cs =>
        if e = 'u' then
          match hexQuad cs with
          | .error f => .error f
          | .ok (_, ⟨rest, h⟩) =>
            match skipString rest with
            | .error f => .error f
            | .ok ⟨tail, h'⟩ =>
              .ok ⟨tail, Nat.lt_succ_of_lt (Nat.lt_succ_of_lt (Nat.lt_trans h' h))⟩
        else if ['"', '\\', '/', 'b', 'f', 'n', 'r', 't'].contains e then
          match skipString cs with
          | .error f => .error f
          | .ok ⟨tail, h⟩ => .ok ⟨tail, Nat.lt_succ_of_lt (Nat.lt_succ_of_lt h)⟩
        else .error (.ahead .invalidEscape (e :: cs))
    else if c.toNat < 0x20 then .error (.here .controlCharacter (c :: cs))
    else
      match skipString cs with
      | .error f => .error f
      | .ok ⟨tail, h⟩ => .ok ⟨tail, Nat.lt_succ_of_lt h⟩
  termination_by cs => cs.length
  decreasing_by all_goals simp only [List.length_cons]; omega

def skipDigits (cs : List Char) : List Char :=
  cs.dropWhile Char.isDigit

/-- Passes over what follows the `e` of an exponent. -/
def skipExponent (cs : List Char) : Outcome Unit :=
  let cs := match cs with
    | '+' :: rest => rest
    | '-' :: rest => rest
    | _ => cs
  match cs with
  | [] => .error (.here .invalidNumber [])
  | c :: rest =>
    if c.isDigit then .ok ((), skipDigits rest) else .error (.ahead .invalidNumber (c :: rest))

/-- Passes over what follows the digits before the point. -/
def skipFraction (cs : List Char) : Outcome Unit :=
  match cs with
  | '.' :: rest =>
    if !startsWithDigit rest then .error (.ahead .invalidNumber rest)
    else match skipDigits rest with
      | 'e' :: tail | 'E' :: tail => skipExponent tail
      | tail => .ok ((), tail)
  | 'e' :: rest | 'E' :: rest => skipExponent rest
  | _ => .ok ((), cs)

def skipNumber (cs : List Char) : Outcome Unit :=
  match cs with
  | [] => .error (.here .invalidNumber [])
  | c :: rest =>
    if !c.isDigit then .error (.ahead .invalidNumber (c :: rest))
    else if c = '0' then
      if startsWithDigit rest then .error (.ahead .invalidNumber rest) else skipFraction rest
    else skipFraction (skipDigits rest)

/-- The kind of container that a reading point is in. -/
inductive Frame
  | list
  | object
  deriving DecidableEq, Repr, Inhabited

/-- Goes to the next value inside the innermost open container, closing containers on the way.
Returns the containers that are open there; none are left once the outermost one is closed. `more`
says that a value has just been read, so that a comma may follow. -/
def toNextValue (more : Bool) : (frames : List Frame) → List Char → Outcome (List Frame)
  | [], cs => .ok ([], cs)
  | frame :: frames, cs =>
    match skipSpace cs, frame with
    | [], .list => .error (.ahead .endInList [])
    | [], .object => .error (.ahead .endInObject [])
    | ']' :: rest, .list => toNextValue true frames rest
    | '}' :: rest, .object => toNextValue true frames rest
    | ',' :: rest, _ =>
      if more then enter (frame :: frames) rest else enter (frame :: frames) (',' :: rest)
    | cs, frame =>
      if !more then enter (frame :: frames) cs
      else match frame with
        | .list => .error (.ahead .expectedListCommaOrEnd cs)
        | .object => .error (.ahead .expectedObjectCommaOrEnd cs)
where
  /-- Passes over the name of a member. -/
  enter (frames : List Frame) (cs : List Char) : Outcome (List Frame) :=
    match frames with
    | .object :: _ =>
      match skipSpace cs with
      | [] => .error (.ahead .endInObject [])
      | '"' :: rest =>
        match skipString rest with
        | .error f => .error f
        | .ok ⟨rest, _⟩ =>
          match skipSpace rest with
          | ':' :: rest => .ok (frames, rest)
          | [] => .error (.ahead .endInObject [])
          | rest => .error (.ahead .expectedColon rest)
      | cs => .error (.ahead .keyMustBeString cs)
    | _ => .ok (frames, cs)

/-- Passes over one scalar or one opening bracket; a bracket is added to the open containers, and
the flag says whether a value has been completed. -/
def skipStart (frames : List Frame) (cs : List Char) : Outcome (Bool × List Frame) :=
  match skipSpace cs with
  | [] => .error (.ahead .endInValue [])
  | 'n' :: rest => (word "ull".toList rest).map fun (_, rest) => ((true, frames), rest)
  | 't' :: rest => (word "rue".toList rest).map fun (_, rest) => ((true, frames), rest)
  | 'f' :: rest => (word "alse".toList rest).map fun (_, rest) => ((true, frames), rest)
  | '-' :: rest => (skipNumber rest).map fun (_, rest) => ((true, frames), rest)
  | '"' :: rest => (skipString rest).map fun ⟨rest, _⟩ => ((true, frames), rest)
  | '[' :: rest => .ok ((false, .list :: frames), rest)
  | '{' :: rest => .ok ((false, .object :: frames), rest)
  | c :: rest =>
    if c.isDigit then (skipNumber (c :: rest)).map fun (_, rest) => ((true, frames), rest)
    else .error (.ahead .expectedValue (c :: rest))

/-- Passes over values until all containers are closed. Every round takes at least one character, so
the count of characters bounds the rounds. -/
def skipRounds : (rounds : Nat) → (frames : List Frame) → List Char → Outcome Unit
  | 0, _, cs => .error (.here .endInValue cs)
  | rounds + 1, frames, cs =>
    match skipStart frames cs with
    | .error f => .error f
    | .ok ((more, frames), rest) =>
      match toNextValue more frames rest with
      | .error f => .error f
      | .ok ([], rest) => .ok ((), rest)
      | .ok (frames, rest) => skipRounds rounds frames rest

def skipValue (cs : List Char) : Outcome Unit :=
  skipRounds (cs.length + 1) [] cs

end DiagnosticWatch.Json
