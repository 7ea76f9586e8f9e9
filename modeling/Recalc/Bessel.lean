import Recalc.Number.Binary64

/-!
# Bessel functions of whole order

Quadrature, power series, rational approximations and recurrences on binary64 numbers. The order of
the operations fixes every rounding.
-/

namespace Recalc.Bessel

/-- The value of a polynomial whose coefficients are listed from the constant term on. -/
def horner (y : Float) : List Float → Float
  | [] => 0.0
  | [c] => c
  | c :: rest => c + y * horner y rest

/-- Steps a three-term recurrence over the orders `1, …, n - 1` from the values of order zero and
one; `step` gets the order, the value before and the current value. With `stopEarly` a value that is
not finite ends it. -/
def climb (stopEarly : Bool) (step : Nat → Float → Float → Float) (order : Nat)
    (zeroth first : Float) : Float :=
  match order with
  | 0 => zeroth
  | n + 1 => go n 1 zeroth first
where
  go : Nat → Nat → Float → Float → Float
    | 0, _, _, current => current
    | remaining + 1, j, before, current =>
      let next := step j before current
      if stopEarly && !next.isFinite then next else go remaining (j + 1) current next

/-- The factor `2 j / x` of the recurrences. -/
def slope (x : Float) (j : Nat) : Float :=
  2.0 * Float.ofNat j / x

/-! ### The modified function of the second kind -/

/-- The step of the trapezoid rule for the integral of `exp (-x cosh t) cosh (ν t)`. -/
def stepK : Float := 0.05

/-- Adds nodes of the trapezoid rule until the exponent passes 750. The hyperbolic cosine overflows
before the node at 711, which bounds the number of nodes. -/
def nodesK (nu x : Float) : Nat → Float → Float → Float
  | 0, _, sum => sum
  | remaining + 1, t, sum =>
    let exponent := x * t.cosh
    let sum := sum + (-exponent).exp * (nu * t).cosh
    if 750.0 < exponent - nu * t then sum else nodesK nu x remaining (t + stepK) sum

/-- The integral for the order `nu`, for positive `x`. -/
def integralK (nu x : Float) : Float :=
  nodesK nu x 15000 stepK (0.5 * (-x).exp) * stepK

/-- The modified function of the second kind, for positive `x`. -/
def k (x : Float) (order : Nat) : Float :=
  climb true (fun j before current => before + slope x j * current) order
    (integralK 0.0 x) (integralK 1.0 x)

/-! ### The modified function of the first kind -/

/-- Adds terms of the power series from index `i` until they no longer count. -/
def seriesI (quarterSquare : Float) (order : Nat) : Nat → Nat → Float → Float → Float
  | 0, _, _, sum => sum
  | remaining + 1, i, term, sum =>
    let term := term * (quarterSquare / (Float.ofNat i * Float.ofNat (i + order)))
    let sum := sum + term
    if term.abs ≤ 1e-17 * sum.abs then sum
    else seriesI quarterSquare order remaining (i + 1) term sum

/-- The modified function of the first kind. -/
def i (x : Float) (order : Nat) : Float :=
  let half := x / 2.0
  let leading :=
    (List.range order).foldl (fun acc j => acc * half / Float.ofNat (j + 1)) 1.0
  seriesI (half * half) order 10001 1 leading leading

/-! ### The function of the first kind -/

/-- Two over pi, and two phases, with the digits that the approximations were fitted with. -/
def twoOverPi : Float := 0.636619772

def quarterPhase : Float := 0.785398164

def threeQuarterPhase : Float := 2.356194491

/-- The amplitudes and the phase of an asymptotic form. -/
structure Asymptotic where
  p : Float
  q : Float
  phase : Float
  z : Float

/-- The asymptotic form of order zero, for `ax` at least eight. -/
def asymptotic0 (ax : Float) : Asymptotic :=
  let z := 8.0 / ax
  let y := z * z
  { p := horner y [1.0, -0.1098628627e-2, 0.2734510407e-4, -0.2073370639e-5, 0.2093887211e-6]
    q := horner y
      [-0.1562499995e-1, 0.1430488765e-3, -0.6911147651e-5, 0.7621095161e-6, -0.934935152e-7]
    phase := ax - quarterPhase
    z }

def asymptotic1 (ax : Float) : Asymptotic :=
  let z := 8.0 / ax
  let y := z * z
  { p := horner y [1.0, 0.183105e-2, -0.3516396496e-4, 0.2457520174e-5, -0.240337019e-6]
    q := horner y [0.04687499995, -0.2002690873e-3, 0.8449199096e-5, -0.88228987e-6, 0.105787412e-6]
    phase := ax - threeQuarterPhase
    z }

def Asymptotic.first (a : Asymptotic) (ax : Float) : Float :=
  (twoOverPi / ax).sqrt * (a.phase.cos * a.p - a.z * a.phase.sin * a.q)

def Asymptotic.second (a : Asymptotic) (ax : Float) : Float :=
  (twoOverPi / ax).sqrt * (a.phase.sin * a.p + a.z * a.phase.cos * a.q)

/-- Order zero by a rational approximation below eight and the asymptotic form above. -/
def j0 (x : Float) : Float :=
  let ax := x.abs
  if ax < 8.0 then
    let y := x * x
    horner y [57568490574.0, -13362590354.0, 651619640.7, -11214424.18, 77392.33017, -184.9052456]
      / horner y [57568490411.0, 1029532985.0, 9494680.718, 59272.64853, 267.8532712, 1.0]
  else (asymptotic0 ax).first ax

def j1 (x : Float) : Float :=
  let ax := x.abs
  if ax < 8.0 then
    let y := x * x
    x * horner y
        [72362614232.0, -7895059235.0, 242396853.1, -2972611.439, 15704.48260, -30.16036606]
      / horner y [144725228442.0, 2300535178.0, 18583304.74, 99447.43394, 376.9991397, 1.0]
  else
    let value := (asymptotic1 ax).first ax
    if x < 0.0 then -value else value

def pi : Float := 3.141592653589793

/-- The largest argument for which quadrature is used whatever the order. -/
def quadratureLimit : Float := 1000.0

/-- The trapezoid rule for the integral of `cos (n τ - x sin τ)` over a half turn. -/
def quadratureJ (x : Float) (order : Nat) : Float :=
  let n := Float.ofNat order
  let wanted := 2.0 * (x.abs + n) + 64.0
  let nodes := (Number.toInt64 (if wanted < 64.0 then 64.0 else wanted)).toNat
  let h := pi / Float.ofNat nodes
  let sum := (List.range (nodes + 1)).foldl (fun sum i =>
    let tau := Float.ofNat i * h
    let weight := if i = 0 ∨ i = nodes then 0.5 else 1.0
    sum + weight * (n * tau - x * tau.sin).cos) 0.0
  sum * h / pi

/-- The function of the first kind: quadrature, or for large arguments the recurrence, which is
stable while the order stays below the argument. -/
def j (x : Float) (order : Nat) : Float :=
  if quadratureLimit < x.abs ∧ Float.ofNat order < x.abs then
    climb false (fun m before current => slope x m * current - before) order (j0 x) (j1 x)
  else quadratureJ x order

/-! ### The function of the second kind -/

/-- Order zero, for positive `x`. -/
def y0 (x : Float) : Float :=
  if x < 8.0 then
    let y := x * x
    horner y
        [-2957821389.0, 7062834065.0, -512359803.6, 10879881.29, -86327.92757, 228.4622733]
      / horner y [40076544269.0, 745249964.8, 7189466.438, 47447.26470, 226.1030244, 1.0]
      + twoOverPi * j0 x * x.log
  else (asymptotic0 x).second x

def y1 (x : Float) : Float :=
  if x < 8.0 then
    let y := x * x
    x * horner y
        [-0.4900604943e13, 0.1275274390e13, -0.5153438139e11, 0.7349264551e9, -0.4237922726e7,
          0.8511937935e4]
      / horner y
        [0.2499580570e14, 0.4244419664e12, 0.3733650367e10, 0.2245904002e8, 0.1020426050e6,
          0.3549632885e3, 1.0]
      + twoOverPi * (j1 x * x.log - 1.0 / x)
  else (asymptotic1 x).second x

/-- The function of the second kind, for positive `x`. -/
def y (x : Float) (order : Nat) : Float :=
  climb true (fun m before current => slope x m * current - before) order (y0 x) (y1 x)

end Recalc.Bessel
