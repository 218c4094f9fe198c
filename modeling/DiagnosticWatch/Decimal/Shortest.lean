/-!
# Binary fractions in decimal

A finite positive `Float` is `mantissa * 2 ^ exponent`. Its shortest decimal is the first one found
on ever finer decimal grids that lies in the interval of reals which round to the number; of two on
one grid the nearer is taken. Rounding to a fixed number of places is exact as well.
-/

namespace DiagnosticWatch.Decimal

/-- A positive number `mantissa * 2 ^ exponent`. `narrow` says that the interval below it is half as
wide as the one above, which holds at powers of two. -/
structure Dyadic where
  mantissa : Nat
  exponent : Int
  narrow : Bool
  deriving DecidableEq, Repr

def Dyadic.ofFloat (x : Float) : Dyadic :=
  let bits : Nat := x.toBits.toNat
  let fraction : Nat := bits % Nat.pow 2 52
  let biased : Nat := bits / Nat.pow 2 52 % Nat.pow 2 11
  if biased = 0 then ⟨fraction, -1074, false⟩
  else ⟨Nat.pow 2 52 + fraction, (biased : Int) - 1075, decide (fraction = 0 ∧ 1 < biased)⟩

/-- The quotient rounded to the nearest integer, a half to the even neighbour. -/
def roundDiv (num den : Nat) : Nat :=
  let q := num / den
  let r := num % den
  if 2 * r < den then q
  else if den < 2 * r then q + 1
  else if q % 2 = 0 then q else q + 1

/-- The factors by which `2 ^ (exponent - 2)` and `10 ^ (-place)` contribute to a fraction: a
numerator and a denominator. -/
private def scale (d : Dyadic) (place : Int) : Nat × Nat :=
  let two := d.exponent - 2
  (Nat.pow 2 two.toNat * Nat.pow 10 (-place).toNat, Nat.pow 2 (-two).toNat * Nat.pow 10 place.toNat)

/-- The multiple of `10 ^ place` next to the number that rounds to it, if there is one. -/
def onGrid (d : Dyadic) (place : Int) : Option Nat :=
  let (num, den) := scale d place
  let value := 4 * d.mantissa * num
  let low := (4 * d.mantissa - (if d.narrow then 1 else 2)) * num
  let high := (4 * d.mantissa + 2) * num
  let closed := d.mantissa % 2 = 0
  let below := value / den
  let above := below + 1
  let belowFits := 0 < below ∧ (low < below * den ∨ (closed ∧ low = below * den))
  let aboveFits := above * den < high ∨ (closed ∧ above * den = high)
  if belowFits ∧ aboveFits then some (roundDiv value den)
  else if belowFits then some below
  else if aboveFits then some above
  else none

/-- The digits, as a number, and the place of the last one. The grids run from `10 ^ 309` downwards;
the last of them is fine enough for every number. -/
def shortest (d : Dyadic) : Nat × Int :=
  go 660
where
  go : Nat → Nat × Int
    | 0 => (d.mantissa, 0)
    | n + 1 =>
      let place : Int := (n : Int) - 350
      match onGrid d place with
      | some digits => (digits, place)
      | none => go n

def digits (n : Nat) : List Char :=
  (toString n).toList

/-- How numbers are written: positional as long as the exponent of the first digit lies between the
two bounds, and with an exponent otherwise. -/
structure Layout where
  least : Int
  greatest : Int

/-- A number that is not negative, zero included, in the shortest form that reads back. A positional
number has a digit on both sides of the point; an exponent has a sign and two digits at least. -/
def Layout.render (f : Layout) (x : Float) : String :=
  if x == 0 then "0.0"
  else
    let (value, place) := shortest (Dyadic.ofFloat x)
    let ds := digits value
    let lead : Int := place + (ds.length : Int) - 1
    if f.least ≤ lead ∧ lead ≤ f.greatest then
      if 0 ≤ place then String.ofList (ds ++ List.replicate place.toNat '0') ++ ".0"
      else if 0 ≤ lead then
        String.ofList (ds.take (lead.toNat + 1)) ++ "." ++ String.ofList (ds.drop (lead.toNat + 1))
      else "0." ++ String.ofList (List.replicate (-lead - 1).toNat '0' ++ ds)
    else
      let tail := match ds.drop 1 with
        | [] => ""
        | rest => "." ++ String.ofList rest
      let size := toString lead.natAbs
      String.ofList (ds.take 1) ++ tail ++ "e" ++ (if lead < 0 then "-" else "+") ++
        (if size.length < 2 then "0" ++ size else size)

/-- A number that is not negative, rounded to a fixed count of decimal places. -/
def fixed (places : Nat) (x : Float) : String :=
  let d := Dyadic.ofFloat x
  let unit := Nat.pow 10 places
  let scaled :=
    roundDiv (d.mantissa * Nat.pow 2 d.exponent.toNat * unit) (Nat.pow 2 (-d.exponent).toNat)
  let whole := toString (scaled / unit)
  let part := toString (scaled % unit)
  if places = 0 then whole
  else whole ++ "." ++ String.ofList (List.replicate (places - part.length) '0') ++ part

end DiagnosticWatch.Decimal
