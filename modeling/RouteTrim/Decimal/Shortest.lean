import RouteTrim.Decimal.Binary64

/-!
# Shortest decimals

The fewest decimal digits that read back as a given number, and among decimals of that length the
one nearest to it. The reals that round to `m * 2 ^ q` form an interval around it, closed when `m`
is even; on the grid of decimals with `n` digits only the two neighbours of the number can be the
nearest ones inside. A double needs at most seventeen digits.

`render` then writes the digits: positionally while the decimal point falls between three zeros
in front of the first digit and sixteen digits behind it, with an exponent of at least two digits
otherwise. A whole number keeps `.0`.
-/

set_option autoImplicit false

namespace RouteTrim.Decimal

/-- A positive decimal: `digits` with the decimal point in front of the first one moved by
`point` places to the right. -/
structure Digits where
  digits : List Char
  point : Int
  deriving DecidableEq, Repr

/-- The decimals that read back as one number: `low / unit` to `high / unit` around
`value / unit`. -/
structure Interval where
  low : Nat
  value : Nat
  high : Nat
  unit : Nat
  closed : Bool

/-- The interval of reals that round to a number. Below a power of two the next number is only
half as far away. -/
def Interval.around (mantissa : Nat) (exponent : Int) : Interval :=
  let below :=
    if mantissa = Nat.pow 2 52 ∧ Binary64.leastExponent < exponent then 1 else 2
  let scale := if 2 ≤ exponent then Nat.pow 2 (exponent - 2).toNat else 1
  { low := (4 * mantissa - below) * scale
    value := 4 * mantissa * scale
    high := (4 * mantissa + 2) * scale
    unit := if 2 ≤ exponent then 1 else Nat.pow 2 (2 - exponent).toNat
    closed := mantissa % 2 == 0 }

/-- Whether the fraction `n / d` lies in the interval. -/
def Interval.contains (i : Interval) (n d : Nat) : Bool :=
  if i.closed then i.low * d ≤ n * i.unit && n * i.unit ≤ i.high * d
  else i.low * d < n * i.unit && n * i.unit < i.high * d

/-- The least `k` with `value / unit < 10 ^ k`, searched upwards from a start below it. -/
def pointFrom (value unit : Nat) : Nat → Int → Int
  | 0, k => k
  | fuel + 1, k =>
    let fits := if 0 ≤ k then value < unit * Nat.pow 10 k.toNat else value * Nat.pow 10 (-k).toNat < unit
    if fits then k else pointFrom value unit fuel (k + 1)

/-- The multiple of `10 ^ power` nearest to the number that lies in the interval, as the number
of such units. -/
def gridPoint? (i : Interval) (power : Int) : Option Nat :=
  let ten := Nat.pow 10 power.natAbs
  let (n, d) := if 0 ≤ power then (i.value, i.unit * ten) else (i.value * ten, i.unit)
  let lower := n / d
  let inside (k : Nat) : Bool :=
    if 0 ≤ power then i.contains (k * ten) 1 else i.contains k ten
  match inside lower, inside (lower + 1) with
  | true, true => some (Binary64.roundHalfEven n d)
  | true, false => some lower
  | false, true => some (lower + 1)
  | false, false => none

/-- The first grid with a hit, from `length` digits on. -/
def shortestFrom (i : Interval) (point : Int) : Nat → Nat → Digits
  | 0, _ => ⟨[], point⟩
  | fuel + 1, length =>
    match gridPoint? i (point - length) with
    | some k =>
      let digits := Nat.toDigits 10 k
      ⟨digits, point + (digits.length - length)⟩
    | none => shortestFrom i point fuel (length + 1)

/-- The shortest decimal that reads back as a positive finite number. -/
def shortest (mantissa : Nat) (exponent : Int) : Digits :=
  let i := Interval.around mantissa exponent
  let point := pointFrom i.value i.unit 700 (-330)
  let ⟨digits, point⟩ := shortestFrom i point 18 1
  ⟨(digits.reverse.dropWhile (· == '0')).reverse, point⟩

def Digits.render (d : Digits) : List Char :=
  if -4 < d.point ∧ d.point ≤ 16 then
    if d.point ≤ 0 then '0' :: '.' :: List.replicate (-d.point).toNat '0' ++ d.digits
    else
      let whole := d.point.toNat
      let front := d.digits.take whole ++ List.replicate (whole - d.digits.length) '0'
      let back := d.digits.drop whole
      front ++ '.' :: (if back.isEmpty then ['0'] else back)
  else
    let power := d.point - 1
    let size := Nat.toDigits 10 power.natAbs
    let fraction := d.digits.drop 1
    d.digits.take 1 ++ (if fraction.isEmpty then [] else '.' :: fraction)
      ++ ['e', if power < 0 then '-' else '+']
      ++ (if size.length < 2 then '0' :: size else size)

/-- The text of a number. -/
def Binary64.render : Binary64 → String
  | .finite negative mantissa exponent =>
    let body := if mantissa = 0 then "0.0" else String.ofList (shortest mantissa exponent).render
    if negative then "-" ++ body else body
  | .infinite negative => if negative then "-inf" else "inf"
  | .notANumber => "nan"

end RouteTrim.Decimal
