/-!
# The shortest decimal of a floating-point number

A finite double is `m * 2 ^ q` for natural `m`, and every real number between its two neighbours'
midpoints reads back as it (the midpoints themselves exactly if `m` is even). Among the decimals
that read back, the written form takes the fewest digits, and of those the nearest. Everything is
exact arithmetic on natural numbers.
-/

namespace Launcher.Decimal

/-- A positive finite double: `mantissa * 2 ^ exponent`. The field `narrow` says that the next
smaller double is only half as far away as the next larger one. -/
structure Binary where
  mantissa : Nat
  exponent : Int
  narrow : Bool
  deriving DecidableEq, Repr

/-- The kinds of double, read off the 64 bits. -/
inductive Value
  | zero (negative : Bool)
  | finite (negative : Bool) (magnitude : Binary)
  | infinite (negative : Bool)
  | notANumber
  deriving DecidableEq, Repr

/-- The double that the bits `b` stand for: one sign bit, eleven of exponent, 52 of fraction. -/
def Value.ofBits (b : UInt64) : Value :=
  let n := b.toNat
  let negative := decide (Nat.pow 2 63 ≤ n)
  let e := n / Nat.pow 2 52 % Nat.pow 2 11
  let f := n % Nat.pow 2 52
  if e = 2047 then if f = 0 then .infinite negative else .notANumber
  else if e = 0 then
    if f = 0 then .zero negative else .finite negative ⟨f, -1074, false⟩
  else .finite negative ⟨Nat.pow 2 52 + f, Int.ofNat e - 1075, f = 0 && 1 < e⟩

/-- A decimal: `digits * 10 ^ exponent`. -/
structure Number where
  digits : Nat
  exponent : Int
  deriving DecidableEq, Repr

namespace Binary

/-- Four times the number, over a common denominator with the decimals `d * 10 ^ p`: the
comparison of `x / 4 * 2 ^ q` with `d * 10 ^ p` is that of `scaled q p x` with `grid q p d`. -/
def scaled (q p : Int) (x : Nat) : Nat := x * Nat.pow 2 q.toNat * Nat.pow 10 (-p).toNat

@[inherit_doc scaled]
def grid (q p : Int) (d : Nat) : Nat :=
  4 * d * Nat.pow 2 (-q).toNat * Nat.pow 10 p.toNat

/-- Whether `d * 10 ^ p` reads back as `v`. -/
def readsBack (v : Binary) (p : Int) (d : Nat) : Bool :=
  let x := grid v.exponent p d
  let lo := scaled v.exponent p (4 * v.mantissa - if v.narrow then 1 else 2)
  let hi := scaled v.exponent p (4 * v.mantissa + 2)
  if v.mantissa % 2 = 0 then lo ≤ x && x ≤ hi else lo < x && x < hi

/-- The largest `e` with `10 ^ e ≤ v`. -/
def order (v : Binary) : Int :=
  let shift := 400
  let whole := scaled v.exponent (-shift) (4 * v.mantissa) / grid v.exponent (-shift) 1
  ((Nat.toDigits 10 whole).length : Int) - 1 - shift

/-- The nearer of the two neighbours of `v` among the multiples of `10 ^ p` that read back. On an
exact tie the even one is taken. -/
def onGrid? (v : Binary) (p : Int) : Option Number :=
  let x := scaled v.exponent p (4 * v.mantissa)
  let d := x / grid v.exponent p 1
  let below := x - grid v.exponent p d
  let above := grid v.exponent p (d + 1) - x
  let lower := readsBack v p d
  let upper := readsBack v p (d + 1)
  if lower && (!upper || below < above || (below = above && d % 2 = 0)) then some ⟨d, p⟩
  else if upper then some ⟨d + 1, p⟩
  else none

/-- The shortest decimal that reads back as `v`, the nearest of them; 17 digits always suffice. -/
def shortest (v : Binary) : Number :=
  let grids := (List.range 17).map fun n ↦ v.order - Int.ofNat n
  (grids.findSome? v.onGrid?).getD ⟨0, 0⟩

end Binary

/-- The digits of `d` without the zeros at their end, and the place of the point counted from
their front: the number is `0.ds * 10 ^ point`. -/
def Number.normal (d : Number) : List Char × Int :=
  let all := Nat.toDigits 10 d.digits
  ((all.reverse.dropWhile (· == '0')).reverse, all.length + d.exponent)

/-- How a decimal is written: positional, with at least one digit on both sides of the point, when
the point falls between four places before the digits and sixteen places behind their front;
otherwise with a signed exponent of at least two digits. -/
def Number.render (d : Number) : List Char :=
  let (ds, point) := d.normal
  if point ≤ -4 ∨ 16 < point then
    let e := point - 1
    let es := Nat.toDigits 10 e.natAbs
    let fraction := if ds.length ≤ 1 then [] else '.' :: ds.drop 1
    ds.take 1 ++ fraction ++ ['e', if e < 0 then '-' else '+'] ++
      List.replicate (2 - es.length) '0' ++ es
  else if point ≤ 0 then
    ['0', '.'] ++ List.replicate (-point).toNat '0' ++ ds
  else
    let n := point.toNat
    let whole := ds.take n ++ List.replicate (n - ds.length) '0'
    let rest := ds.drop n
    whole ++ '.' :: if rest.isEmpty then ['0'] else rest

/-- The written form of a double. -/
def Value.render : Value → String
  | .zero negative => (if negative then "-" else "") ++ "0.0"
  | .finite negative v =>
    (if negative then "-" else "") ++ String.ofList v.shortest.render
  | .infinite negative => (if negative then "-" else "") ++ "inf"
  | .notANumber => "nan"

end Launcher.Decimal
