import MediaSheets.Decimal.Shortest

/-!
# The text of a double

Where the point goes, and from which magnitudes on an exponent is written instead.
-/

namespace MediaSheets.Decimal

/-- Which decimal exponents are written with a point alone; the others are written in scientific
notation, with the exponent's sign always shown. -/
structure Layout where
  /-- The smallest exponent of a leading digit that is written positionally. -/
  lowest : Int
  /-- The first exponent of a leading digit that is too large for it. -/
  tooLarge : Int

/-- `digits * 10 ^ scale` with a point, at least one digit standing on each side of it. -/
def positional (digits : Nat) (scale : Int) : String :=
  let text := digits.repr
  if 0 ≤ scale then text ++ String.ofList (List.replicate scale.toNat '0') ++ ".0"
  else
    let places := (-scale).toNat
    let padded := List.replicate (places + 1 - text.length) '0' ++ text.toList
    String.ofList (padded.take (padded.length - places)) ++ "." ++
      String.ofList (padded.drop (padded.length - places))

/-- `digits * 10 ^ scale` with one digit before the point, which is left out if nothing follows. -/
def scientific (digits : Nat) (scale : Int) : String :=
  let text := digits.repr.toList
  let exponent := scale + (text.length - 1 : Nat)
  let point := if text.length = 1 then "" else "."
  String.ofList (text.take 1) ++ point ++ String.ofList (text.drop 1) ++ "e" ++
    (if exponent < 0 then "-" else "+") ++ exponent.natAbs.repr

/-- The magnitude of a finite double, zero being `0.0`. -/
def Layout.magnitude (layout : Layout) (bits : UInt64) : String :=
  let binary := Binary.ofBits bits
  if binary.mantissa = 0 then "0.0"
  else
    let (digits, scale) := binary.shortest
    let leading := scale + (digits.repr.length - 1 : Nat)
    if layout.lowest ≤ leading && leading < layout.tooLarge then positional digits scale
    else scientific digits scale

/-- The text of a finite double, a zero below zero keeping its sign. -/
def Layout.text (layout : Layout) (x : Float) : String :=
  (if x.toBits.toNat < 9223372036854775808 then "" else "-") ++ layout.magnitude x.toBits

end MediaSheets.Decimal
