/-
Floating-point numbers of 64 bits, by exact arithmetic.

A finite number is a whole mantissa below 2^53 times a power of two no smaller
than 2^-1074.  Every operation is one exact quotient of naturals followed by one
rounding to the nearest such number, a tie going to the even mantissa; `ofRatio?`
is that rounding, and it has no answer where the quotient is too large.
-/

namespace IdentityStore

/-- The finite number whose size is `mantissa` times two to the power `exponent`.
Zero keeps its sign. -/
structure Binary64 where
  negative : Bool
  mantissa : Nat
  exponent : Int
  deriving DecidableEq, Repr

namespace Binary64

/-- The smallest exponent of a number. -/
def leastExponent : Int := -1074

/-- The largest exponent of a number. -/
def mostExponent : Int := 971

/-- The quotient nearest to `n / d`, a tie going to the even one. -/
def roundQuotient (n d : Nat) : Nat :=
  let q := n / d
  let r := n % d
  if 2 * r < d then q
  else if d < 2 * r then q + 1
  else if q % 2 = 0 then q else q + 1

/-- The quotient `n / d` divided by two to the power `e`, as a quotient. -/
def scale (n d : Nat) (e : Int) : Nat × Nat :=
  if 0 ≤ e then (n, d * Nat.pow 2 e.toNat) else (n * Nat.pow 2 (-e).toNat, d)

/-- The exponent at which the quotient `n / d` has a mantissa of 53 bits, or the
least exponent if that is larger. -/
def exponentOf (n d : Nat) : Int :=
  let guess : Int := (n.log2 : Int) - d.log2 - 52
  let s := scale n d guess
  max leastExponent (if s.1 / s.2 < Nat.pow 2 52 then guess - 1 else guess)

/-- The number nearest to `n / d` with the given sign. -/
def ofRatio? (negative : Bool) (n d : Nat) : Option Binary64 :=
  if n = 0 then some ⟨negative, 0, leastExponent⟩
  else
    let e := exponentOf n d
    let s := scale n d e
    let m := roundQuotient s.1 s.2
    let x : Binary64 := if m = Nat.pow 2 53 then ⟨negative, Nat.pow 2 52, e + 1⟩ else ⟨negative, m, e⟩
    if x.exponent ≤ mostExponent then some x else none

/-- The size of a number as a quotient of naturals. -/
def ratio (x : Binary64) : Nat × Nat := scale x.mantissa 1 (-x.exponent)

/-- The product of two numbers, with the sign of the first. -/
def mul? (x y : Binary64) : Option Binary64 :=
  ofRatio? x.negative (x.ratio.1 * y.ratio.1) (x.ratio.2 * y.ratio.2)

/-- The quotient of two numbers, with the sign of the first. -/
def div? (x y : Binary64) : Option Binary64 :=
  ofRatio? x.negative (x.ratio.1 * y.ratio.2) (x.ratio.2 * y.ratio.1)

/-- The largest power of ten that has a number near it. -/
def mostTen : Nat := 308

/-- Multiplies by the number nearest to ten to the power `k`. -/
def timesTen? (x : Binary64) (k : Nat) : Option Binary64 :=
  (ofRatio? false (Nat.pow 10 k) 1).bind x.mul?

/-- Divides by the number nearest to ten to the power `k`. -/
def overTen? (x : Binary64) (k : Nat) : Option Binary64 :=
  (ofRatio? false (Nat.pow 10 k) 1).bind x.div?

/-- The decimal `significand` times ten to the power `k`.  The significand is rounded
first and scaled after, by one product or quotient for each 308 powers of ten, so
that the last place may differ from the nearest number; what is too small is zero
and what is too large has no answer. -/
def ofDecimal? (negative : Bool) (significand : Nat) (k : Int) : Option Binary64 := do
  let x ← ofRatio? negative significand 1
  let zero : Binary64 := ⟨negative, 0, leastExponent⟩
  if significand = 0 then some zero
  else if 0 ≤ k then
    if k ≤ mostTen then x.timesTen? k.toNat else none
  else
    let j := (-k).toNat
    if j ≤ mostTen then x.overTen? j
    else if j ≤ 2 * mostTen then (← x.overTen? mostTen).overTen? (j - mostTen)
    else some zero

end Binary64

end IdentityStore
