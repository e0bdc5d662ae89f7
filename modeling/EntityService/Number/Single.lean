import EntityService.Number.Double

/-!
# Single precision

## Main definitions

* `Double.toSingle` — the nearest number of single precision
-/

namespace EntityService.Number.Double

/-- The scale at which a finite double has a significand of 24 bits, but never below the least scale
of single precision. -/
def singleScale (x : Double) : Int :=
  max (x.scale + x.significand.log2 - 23) (-149)

/-- The number of single precision that is nearest to a double; it is infinite from the power
`2 ^ 128` on. -/
def toSingle (x : Double) : Double :=
  if !x.isFinite || x.significand = 0 then x
  else
    let q := x.singleScale
    let m := roundedQuotient (scaledNum x.num q) (scaledDen x.den q)
    if twoTo 128 ≤ m * twoTo q then infinite x.negative
    else ofRatio x.negative (m * twoTo q) (twoTo (-q))

end EntityService.Number.Double
