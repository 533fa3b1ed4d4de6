/-
The fewest digits that read back.

Every finite number is the nearest one to a whole interval of reals, whose ends
belong to it exactly if its mantissa is even.  For one digit, two digits and so on
the two neighbours of the number on that decimal grid are tried; the first grid
with a neighbour in the interval wins, of two the nearer, and of two equally near
the even one.  Seventeen digits always do.
-/
import IdentityStore.Decimal.Binary64

namespace IdentityStore

namespace Binary64

/-- A decimal: `digits` times ten to the power `exponent`. -/
structure Decimal where
  digits : Nat
  exponent : Int
  deriving DecidableEq, Repr

/-- How many decimal digits a natural has. -/
def width (n : Nat) : Nat := (Nat.toDigits 10 n).length

/-- The power of ten that the first digit of the quotient `n / d` counts. -/
def magnitude (n d : Nat) : Int :=
  if d ≤ n then (width (n / d) : Int) - 1 else -(width ((d - 1) / n) : Int)

/-- The interval of a number and the number itself, in quarters of its last place:
the lower end, the middle and the upper end.  Below a power of two the grid of
numbers is twice as fine. -/
def quarters (x : Binary64) : Nat × Nat × Nat :=
  let low := if x.mantissa = Nat.pow 2 52 ∧ leastExponent < x.exponent then 1 else 2
  (4 * x.mantissa - low, 4 * x.mantissa, 4 * x.mantissa + 2)

/-- The better neighbour of the number on the grid of `count` digits, and whether
it lies in the interval. -/
def neighbour (x : Binary64) (count : Nat) : Decimal × Bool :=
  let v := x.ratio
  let place : Int := magnitude v.1 v.2 - count + 1
  let ten := if 0 ≤ place then (Nat.pow 10 place.toNat, 1) else (1, Nat.pow 10 (-place).toNat)
  let quarter := scale 1 1 (2 - x.exponent)
  let grid := ten.1 * quarter.2
  let unit := quarter.1 * ten.2
  let q := x.quarters
  let below := q.2.1 * unit / grid
  let rest := q.2.1 * unit % grid
  let inside (c : Nat) : Bool :=
    if x.mantissa % 2 = 0 then q.1 * unit ≤ c * grid && c * grid ≤ q.2.2 * unit
    else q.1 * unit < c * grid && c * grid < q.2.2 * unit
  let nearer :=
    if 2 * rest < grid then below
    else if grid < 2 * rest then below + 1
    else if below % 2 = 0 then below else below + 1
  let farther := if nearer = below then below + 1 else below
  if inside nearer then (⟨nearer, place⟩, true)
  else if inside farther then (⟨farther, place⟩, true)
  else (⟨nearer, place⟩, false)

/-- The shortest decimal that reads back as the number, which is not zero. -/
def shortest (x : Binary64) : Decimal :=
  let tries := (List.range 16).map fun i => x.neighbour (i + 1)
  match tries.find? (·.2) with
  | some hit => hit.1
  | none => (x.neighbour 17).1

/-! ### Text -/

/-- Where a decimal is written with the point in place and where with an exponent:
by the power of ten of its first digit. -/
structure Layout where
  /-- The least power that is still written in place, if there is one. -/
  least : Option Int
  /-- The greatest power that is still written in place, if there is one. -/
  most : Option Int

namespace Layout

/-- Documents write numbers from 1e-5 to below 1e16 in place. -/
def document : Layout := ⟨some (-5), some 15⟩

/-- Every number is written in place. -/
def plain : Layout := ⟨none, none⟩

/-- Holds where a first digit of this power is written in place. -/
def inPlace (l : Layout) (power : Int) : Bool :=
  l.least.all (· ≤ power) && l.most.all (power ≤ ·)

end Layout

/-- The digits of a natural without the zeros at the end. -/
def significant (n : Nat) : List Char :=
  ((Nat.toDigits 10 n).reverse.dropWhile (· = '0')).reverse

/-- Digits with the point in place, `point` digits standing before it. -/
def renderPlain (ds : List Char) (point : Int) : List Char :=
  if point ≤ 0 then "0.".toList ++ List.replicate (-point).toNat '0' ++ ds
  else if ds.length ≤ point.toNat then
    ds ++ List.replicate (point.toNat - ds.length) '0' ++ ".0".toList
  else ds.take point.toNat ++ ['.'] ++ ds.drop point.toNat

/-- Digits with the point after the first and the power of ten behind. -/
def renderPower (ds : List Char) (power : Int) : List Char :=
  let tail := match ds.drop 1 with
    | [] => []
    | more => '.' :: more
  let sign := if power < 0 then '-' else '+'
  ds.take 1 ++ tail ++ ['e', sign] ++ Nat.toDigits 10 power.natAbs

/-- The text of a number: the shortest digits that read back, in the given layout. -/
def render (l : Layout) (x : Binary64) : String :=
  let sign := if x.negative then ['-'] else []
  if x.mantissa = 0 then String.ofList (sign ++ "0.0".toList)
  else
    let d := x.shortest
    let point : Int := width d.digits + d.exponent
    let ds := significant d.digits
    let body :=
      if l.inPlace (point - 1) then renderPlain ds point else renderPower ds (point - 1)
    String.ofList (sign ++ body)

end Binary64

end IdentityStore
