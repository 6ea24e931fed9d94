import KeyCodec.Curve.Basic

/-!
# Multiples of the base point

A multiple is found by doubling and adding.  The intermediate points carry a common denominator
`z`, with `x = X / z ^ 2` and `y = Y / z ^ 3`, so that the whole computation divides only once, at
its end.
-/

namespace KeyCodec
namespace Curve

/-- A point with a denominator; `z = 0` is the neutral element. -/
structure Weighted where
  x : Coordinate
  y : Coordinate
  z : Coordinate

namespace Weighted

def neutral : Weighted := ⟨1, 1, 0⟩

def double (a : Weighted) : Weighted :=
  let slope := 3 * (a.x * a.x)
  let yy := a.y * a.y
  let s := 4 * (a.x * yy)
  let x := slope * slope - 2 * s
  ⟨x, slope * (s - x) - 8 * (yy * yy), 2 * (a.y * a.z)⟩

def addBase (a : Weighted) : Weighted :=
  if a.z = 0 then ⟨baseX, baseY, 1⟩
  else
    let zz := a.z * a.z
    let run := baseX * zz - a.x
    let rise := baseY * (a.z * zz) - a.y
    if run = 0 then
      if rise = 0 then double a else neutral
    else
      let runSq := run * run
      let runCube := run * runSq
      let s := a.x * runSq
      let x := rise * rise - runCube - 2 * s
      ⟨x, rise * (s - x) - a.y * runCube, a.z * run⟩

def multiple (k : Nat) : Weighted :=
  if k = 0 then neutral
  else
    let twice := double (multiple (k / 2))
    if k % 2 = 0 then twice else addBase twice

end Weighted

def power (a : Coordinate) (e : Nat) : Coordinate :=
  if e = 0 then 1
  else
    let half := power (a * a) (e / 2)
    if e % 2 = 0 then half else a * half

/-- The inverse in the field, which is the power by `prime - 2`; zero for zero. -/
def inverse (a : Coordinate) : Coordinate :=
  power a (prime - 2)

def Weighted.coordinates (a : Weighted) : Coordinate × Coordinate :=
  let w := inverse a.z
  let ww := w * w
  (a.x * ww, a.y * (ww * w))

/-- The coordinates of the multiple of the base point by a scalar. -/
def Scalar.baseMultiple (k : Scalar) : Coordinate × Coordinate :=
  (Weighted.multiple k.val).coordinates

end Curve
end KeyCodec
