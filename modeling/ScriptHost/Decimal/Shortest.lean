import ScriptHost.Decimal

/-!
The shortest decimal that reads back as a given binary64 number.

The reals that round to `mantissa * 2 ^ exponent` form an interval around it. `Decimal.shortest`
looks at coarser grids of decimals before finer ones and takes the first grid with a point in the
interval; of two points it takes the nearer one, and of two equally near ones the upper. All of it
is exact arithmetic on natural numbers.
-/

namespace ScriptHost

/-- The reals that round to `value / scale`: those between `low / scale` and `high / scale`, with
both ends included if the interval is `closed`. -/
structure RoundingInterval where
  low : Nat
  value : Nat
  high : Nat
  scale : Nat
  closed : Bool

namespace RoundingInterval

/-- The interval of `mantissa * 2 ^ exponent`. It reaches half way to both neighbours. Below a power
of two the neighbour is only half as far away, except at the least exponent. A number that is
half way between two neighbours rounds to the one with the even mantissa. -/
def ofDyadic (mantissa : Nat) (exponent : Int) : RoundingInterval :=
  let unit := Nat.pow 2 exponent.toNat
  let gapBelow := if mantissa = 0x10000000000000 ∧ -1074 < exponent then 1 else 2
  { low := (4 * mantissa - gapBelow) * unit
    value := 4 * mantissa * unit
    high := (4 * mantissa + 2) * unit
    scale := 4 * Nat.pow 2 (-exponent).toNat
    closed := mantissa % 2 = 0 }

/-- Whether `digits * 10 ^ exponent` lies in the interval. -/
def contains (i : RoundingInterval) (d : Decimal) : Bool :=
  let point := d.digits * Nat.pow 10 d.exponent.toNat * i.scale
  let unit := Nat.pow 10 (-d.exponent).toNat
  if i.closed then i.low * unit ≤ point && point ≤ i.high * unit
  else i.low * unit < point && point < i.high * unit

/-- The multiple of `10 ^ exponent` next below the value, or the value itself if it is one. -/
def floor (i : RoundingInterval) (exponent : Int) : Decimal :=
  ⟨i.value * Nat.pow 10 (-exponent).toNat / (Nat.pow 10 exponent.toNat * i.scale), exponent⟩

/-- The multiple of the same power of ten after `d`. -/
def next (d : Decimal) : Decimal :=
  ⟨d.digits + 1, d.exponent⟩

/-- Whether the value is at least as near to the point after `d` as to `d`, a point below it. -/
def reachesMiddle (i : RoundingInterval) (d : Decimal) : Bool :=
  (2 * d.digits + 1) * Nat.pow 10 d.exponent.toNat * i.scale ≤
    2 * i.value * Nat.pow 10 (-d.exponent).toNat

/-- The multiple of `10 ^ exponent` in the interval that is nearest to the value, if there is one.
-/
def nearest? (i : RoundingInterval) (exponent : Int) : Option Decimal :=
  let below := i.floor exponent
  match i.contains below, i.contains (next below) with
  | false, false => none
  | true, false => some below
  | false, true => some (next below)
  | true, true => some (if i.reachesMiddle below then next below else below)

/-- A power of ten that is at least the value: ten to the number of its digits before the point, or
for a value below 1 the last power that its reciprocal has passed. -/
def order (i : RoundingInterval) : Int :=
  if i.scale ≤ i.value then (Nat.toDigits 10 (i.value / i.scale)).length
  else 1 - (Nat.toDigits 10 (i.scale / i.value)).length

/-- The first hit on the grids `10 ^ top`, `10 ^ (top - 1)`, and so on, `finer` grids after the
first. The value is a point of the last grid, which therefore needs no test. -/
def coarsest (i : RoundingInterval) (top : Int) : (finer : Nat) → Decimal
  | 0 => i.floor top
  | finer + 1 =>
    match i.nearest? top with
    | some hit => hit
    | none => i.coarsest (top - 1) finer

end RoundingInterval

/-- The shortest decimal among those that round to `mantissa * 2 ^ exponent`, and of these the
nearest. The number is a multiple of 10 to the power of `exponent`, or of 1 if that is larger,
hence no finer grid is needed. -/
def Decimal.shortest (mantissa : Nat) (exponent : Int) : Decimal :=
  let interval := RoundingInterval.ofDyadic mantissa exponent
  let top := interval.order
  interval.coarsest top (top - min exponent 0).toNat

end ScriptHost
