/-!
Numbers: texts of digits, double-precision numbers as exact values with correct rounding to the nearest one, and the
shortest decimal that reads back as a given one. Of two decimals of equal length the nearer one is taken, of two
equally near ones the even one.
-/
namespace EditorScheme

namespace Text

def digitValue? (base : Nat) (c : Char) : Option Nat :=
  let value :=
    if '0' ≤ c ∧ c ≤ '9' then some (c.toNat - 48)
    else if 'a' ≤ c ∧ c ≤ 'f' then some (c.toNat - 87)
    else if 'A' ≤ c ∧ c ≤ 'F' then some (c.toNat - 55)
    else none
  value.filter (· < base)

/-- Reads a whole text as a number; none for the empty text. -/
def readNat? (base : Nat) (text : List Char) : Option Nat :=
  if text.isEmpty then none
  else text.foldlM (fun total c => (digitValue? base c).map (total * base + ·)) 0

end Text

/-- The value `significand · 10 ^ exponent`. -/
structure Decimal where
  significand : Nat
  exponent : Int
deriving DecidableEq, Repr

/-- A finite number is `± significand · 2 ^ exponent`. Every function of this module returns the form
in which the significand has 53 bits, or fewer with the least exponent. -/
inductive Binary64
  | finite (negative : Bool) (significand : Nat) (exponent : Int)
  | infinite (negative : Bool)
  | nan
deriving DecidableEq, Repr

namespace Binary64

def leastExponent : Int := -1074

def greatestExponent : Int := 971

def zero (negative : Bool) : Binary64 := .finite negative 0 leastExponent

def isInfinite : Binary64 → Bool
  | .infinite _ => true
  | _ => false

def isZero : Binary64 → Bool
  | .finite _ significand _ => significand == 0
  | _ => false

def negate : Binary64 → Binary64
  | .finite negative significand exponent => .finite (!negative) significand exponent
  | .infinite negative => .infinite (!negative)
  | .nan => .nan

/-- Numeric equality: the two zeros are equal, and a number that is no number equals itself. -/
def same (a b : Binary64) : Bool := a == b || (a.isZero && b.isZero)

end Binary64

/-- The integer nearest to `numerator / denominator`; a tie goes to the even one. -/
def roundQuotient (numerator denominator : Nat) : Nat :=
  let quotient := numerator / denominator
  let twice := 2 * (numerator % denominator)
  if twice < denominator then quotient
  else if denominator < twice then quotient + 1
  else quotient + quotient % 2

/-- The quotient `numerator / (denominator · 2 ^ exponent)` as a numerator and a denominator. -/
def scaleDown (numerator denominator : Nat) (exponent : Int) : Nat × Nat :=
  if exponent < 0 then (numerator * Nat.pow 2 (-exponent).toNat, denominator)
  else (numerator, denominator * Nat.pow 2 exponent.toNat)

namespace Binary64

/-- The exponent at which the significand of `numerator / denominator` has 53 bits, or the least one. -/
def exponentFor (numerator denominator : Nat) : Int :=
  let guess : Int := (numerator.log2 : Int) - denominator.log2 - 52
  let scaled := scaleDown numerator denominator guess
  let exact := if scaled.1 < scaled.2 * Nat.pow 2 52 then guess - 1 else guess
  max exact leastExponent

/-- The number nearest to `± numerator / denominator`; beyond the greatest one it is infinite. -/
def nearest (negative : Bool) (numerator denominator : Nat) : Binary64 :=
  if numerator = 0 then zero negative
  else
    let exponent := exponentFor numerator denominator
    let scaled := scaleDown numerator denominator exponent
    let rounded := roundQuotient scaled.1 scaled.2
    let (significand, exponent) :=
      if rounded = Nat.pow 2 53 then (Nat.pow 2 52, exponent + 1) else (rounded, exponent)
    if greatestExponent < exponent then .infinite negative
    else .finite negative significand exponent

def ofNat (n : Nat) : Binary64 := nearest false n 1

/-- The number nearest to `± d`. Values that are far out of range are settled by their length. -/
def ofDecimal (negative : Bool) (d : Decimal) : Binary64 :=
  let order : Int := (Nat.repr d.significand).length + d.exponent
  if d.significand = 0 ∨ order < -330 then zero negative
  else if 310 < order then .infinite negative
  else if d.exponent < 0 then nearest negative d.significand (Nat.pow 10 (-d.exponent).toNat)
  else nearest negative (d.significand * Nat.pow 10 d.exponent.toNat) 1

def ratio (significand : Nat) (exponent : Int) : Nat × Nat :=
  if exponent < 0 then (significand, Nat.pow 2 (-exponent).toNat)
  else (significand * Nat.pow 2 exponent.toNat, 1)

/-- The rounded product of two numbers of which the second is finite and positive. -/
def timesPositive (a b : Binary64) : Binary64 :=
  match a, b with
  | .finite negative m e, .finite _ n f =>
    let x := ratio m e
    let y := ratio n f
    nearest negative (x.1 * y.1) (x.2 * y.2)
  | .finite .., other => other
  | other, _ => other

def overPositive (a b : Binary64) : Binary64 :=
  match a, b with
  | .finite negative m e, .finite _ n f =>
    let x := ratio m e
    let y := ratio n f
    nearest negative (x.1 * y.2) (x.2 * y.1)
  | .finite .., other => other
  | other, _ => other

/-- The reals that round to a positive finite number, in quarters of `2 ^ exponent`: the lower end,
the number, the upper end. Below a power of two the neighbour is half as far. -/
def interval (significand : Nat) (exponent : Int) : Nat × Nat × Nat :=
  let low :=
    if significand = Nat.pow 2 52 ∧ leastExponent < exponent then 4 * significand - 1
    else 4 * significand - 2
  (low, 4 * significand, 4 * significand + 2)

/-- Multiplies by `2 ^ exponent / (4 · 10 ^ grid)`, as a factor and a divisor. -/
def gridScale (exponent grid : Int) : Nat × Nat :=
  let powers : Nat × Nat :=
    if exponent < 0 then (1, Nat.pow 2 (-exponent).toNat) else (Nat.pow 2 exponent.toNat, 1)
  if grid < 0 then (powers.1 * Nat.pow 10 (-grid).toNat, powers.2 * 4)
  else (powers.1, powers.2 * 4 * Nat.pow 10 grid.toNat)

/-- The best multiple of `10 ^ grid` that rounds to the number, if there is one. The ends of the
interval belong to it exactly when the significand is even. -/
def onGrid? (significand : Nat) (exponent grid : Int) : Option Decimal :=
  let (low, value, high) := interval significand exponent
  let (factor, divisor) := gridScale exponent grid
  let inside (x : Nat) : Bool :=
    if significand % 2 = 0 then low * factor ≤ x * divisor && x * divisor ≤ high * factor
    else low * factor < x * divisor && x * divisor < high * factor
  let below := value * factor / divisor
  let above := below + 1
  match inside below, inside above with
  | false, false => none
  | true, false => some ⟨below, grid⟩
  | false, true => some ⟨above, grid⟩
  | true, true => some ⟨roundQuotient (value * factor) divisor, grid⟩

/-- A power of ten above the number, at most a hundredfold. -/
def topGrid (significand : Nat) (exponent : Int) : Int :=
  ((significand.log2 : Int) + exponent) * 30103 / 100000 + 2

def shortest (significand : Nat) (exponent : Int) : Decimal :=
  let top := topGrid significand exponent
  ((List.range 25).findSome? fun (down : Nat) => onGrid? significand exponent (top - down)).getD
    ⟨significand, exponent⟩

end Binary64

/-- How floating-point numbers are written: the orders of the leading digit that go without an
exponent, whether an exponent that is not negative has a plus sign, and the texts of all that is not
finite. -/
structure DecimalLayout where
  leastOrder : Int
  greatestOrder : Int
  plusSign : Bool
  infinity : String
  negativeInfinity : String
  notNumber : String

namespace DecimalLayout

def exponentText (layout : DecimalLayout) (exponent : Int) : List Char :=
  'e' :: if exponent < 0 then '-' :: (Nat.repr exponent.natAbs).toList
    else (if layout.plusSign then ['+'] else []) ++ (Nat.repr exponent.natAbs).toList

/-- Without an exponent there is a digit on both sides of the point; with one, the point stands after
the first digit and is left out when no digit follows. -/
def magnitude (layout : DecimalLayout) (d : Decimal) : List Char :=
  let digits := (Nat.repr d.significand).toList
  let point : Int := digits.length + d.exponent
  if point - 1 < layout.leastOrder ∨ layout.greatestOrder < point - 1 then
    digits.take 1 ++ (if digits.length = 1 then [] else '.' :: digits.drop 1) ++
      layout.exponentText (point - 1)
  else if 0 ≤ d.exponent then digits ++ List.replicate d.exponent.toNat '0' ++ ['.', '0']
  else if 0 < point then digits.take point.toNat ++ '.' :: digits.drop point.toNat
  else '0' :: '.' :: List.replicate (-point).toNat '0' ++ digits

def finite (layout : DecimalLayout) (negative : Bool) (significand : Nat) (exponent : Int) : String :=
  String.ofList <| (if negative then ['-'] else []) ++
    if significand = 0 then ['0', '.', '0']
    else layout.magnitude (Binary64.shortest significand exponent)

def text (layout : DecimalLayout) : Binary64 → String
  | .finite negative significand exponent => layout.finite negative significand exponent
  | .infinite negative => if negative then layout.negativeInfinity else layout.infinity
  | .nan => layout.notNumber

end DecimalLayout

/-- An integer has 64 bits, with or without a sign; all other numbers are floating-point numbers. -/
inductive Number
  | integer (n : Int)
  | float (x : Binary64)
deriving DecidableEq, Repr

namespace Number

/-- Integers differ from floating-point numbers of the same size. -/
def same : Number → Number → Bool
  | .integer a, .integer b => a == b
  | .float a, .float b => a.same b
  | _, _ => false

def text (layout : DecimalLayout) : Number → String
  | .integer n => toString n
  | .float x => layout.text x

end Number

end EditorScheme
