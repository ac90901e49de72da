/-!
# The shortest decimal that reads back

A double stands for every real number that rounds to it. `shortest` gives the decimal with the
fewest digits among those numbers, and of several the nearest, in exact integer arithmetic.
-/

namespace MediaSheets.Decimal

/-- The magnitude `mantissa * 2 ^ exponent` of a finite double. -/
structure Binary where
  mantissa : Nat
  exponent : Int
  /-- Whether the next smaller double is only half as far away as the next larger. -/
  narrowBelow : Bool
  deriving Repr, DecidableEq

/-- The least mantissa of a normal double: two to the power 52. -/
def leastMantissa : Nat := 4503599627370496

/-- The magnitude that the bits of a finite double stand for. -/
def Binary.ofBits (bits : UInt64) : Binary :=
  let field : Nat := bits.toNat / leastMantissa % 2048
  let fraction : Nat := bits.toNat % leastMantissa
  if field = 0 then ⟨fraction, -1074, false⟩
  else ⟨leastMantissa + fraction, (field : Int) - 1075, fraction == 0 && 1 < field⟩

/-- A power of two, one where the exponent is below zero. -/
def powTwo (exponent : Int) : Nat := Nat.pow 2 exponent.toNat

/-- A power of ten, one where the exponent is below zero. -/
def powTen (exponent : Int) : Nat := Nat.pow 10 exponent.toNat

/-- `point * 10 ^ scale` compared with `quarters * 2 ^ (exponent - 2)`. -/
def compareToGrid (point : Nat) (scale : Int) (quarters : Nat) (exponent : Int) : Ordering :=
  compare (point * powTen scale * powTwo (2 - exponent))
    (quarters * powTwo (exponent - 2) * powTen (-scale))

/-- Whether `point * 10 ^ scale` rounds to the given magnitude. The ends of the interval that
does belong to it when the mantissa is even. -/
def Binary.readsBack (b : Binary) (scale : Int) (point : Nat) : Bool :=
  let low := compareToGrid point scale (4 * b.mantissa - if b.narrowBelow then 1 else 2) b.exponent
  let high := compareToGrid point scale (4 * b.mantissa + 2) b.exponent
  (low == .gt && high == .lt) || (b.mantissa % 2 == 0 && (low == .eq || high == .eq))

/-- The last point of the grid of `scale` that is not above the magnitude. -/
def Binary.floorPoint (b : Binary) (scale : Int) : Nat :=
  4 * b.mantissa * powTwo (b.exponent - 2) * powTen (-scale) /
    (powTen scale * powTwo (2 - b.exponent))

/-- The nearest point of the grid of `scale` that reads back, the even one of two as near. -/
def Binary.pointOn? (b : Binary) (scale : Int) : Option Nat :=
  let below := b.floorPoint scale
  match b.readsBack scale below, b.readsBack scale (below + 1) with
  | false, false => none
  | true, false => some below
  | false, true => some (below + 1)
  | true, true =>
    match compareToGrid (2 * below + 1) scale (8 * b.mantissa) b.exponent with
    | .gt => some below
    | .lt => some (below + 1)
    | .eq => some (below + below % 2)

/-- The first grid with a point that reads back, trying `steps` grids from `scale` down. -/
def Binary.search (b : Binary) : (steps : Nat) → (scale : Int) → Nat × Int
  | 0, scale => (b.floorPoint scale, scale)
  | steps + 1, scale =>
    match b.pointOn? scale with
    | some point => (point, scale)
    | none => b.search steps (scale - 1)

/-- Digits `d` and scale `s` such that `d * 10 ^ s` is the shortest decimal of a magnitude above
zero. No double reaches `10 ^ 309`, and the grid of `10 ^ -324` has a point for the smallest. -/
def Binary.shortest (b : Binary) : Nat × Int := b.search 700 309

end MediaSheets.Decimal
