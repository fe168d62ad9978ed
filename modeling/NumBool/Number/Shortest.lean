import NumBool.Number.Binary64

/-!
# The shortest decimal of a binary number

A binary number is written with the fewest decimal digits that read back as the same
number; of several such decimals, the nearest to it, and of two equally near ones the
one whose last digit is even.  The point is placed positionally for magnitudes from
`0.0001` up to below `10 ^ 16`, and a whole number keeps one zero behind the point;
other magnitudes take an exponent of at least two digits.
-/

namespace NumBool.Number

/-- A decimal `digits * 10 ^ exponent`. -/
structure Decimal where
  digits : Nat
  exponent : Int
  deriving DecidableEq, Repr

namespace Decimal

/-- Whether the decimal is read as `x`. -/
def readsAs (d : Decimal) (x : Binary64) : Bool :=
  Binary64.ofDecimal false d.digits d.exponent = x

/-- The same decimal without zeros at its end; `fuel` bounds their number. -/
def trim : Nat → Decimal → Decimal
  | 0, d => d
  | fuel + 1, d =>
    if d.digits % 10 = 0 then trim fuel ⟨d.digits / 10, d.exponent + 1⟩ else d

end Decimal

/-- A power of ten by which every positive number becomes at least one. -/
def lift : Nat := 400

/-- The exponent of the first decimal digit of the positive fraction `num / den`. -/
def leadingExponent (num den : Nat) : Int :=
  (Binary64.digitCount (num * Nat.pow 10 lift / den) : Int) - 1 - lift

/-- The two decimals with `count` digits next to `num / den`, the nearer one first; of
two equally near ones the one whose last digit is even. -/
def neighbours (num den count : Nat) : List Decimal :=
  let exponent := leadingExponent num den - (count - 1 : Nat)
  let (n, d) := scaled den 10 exponent
  let below : Decimal := ⟨num * d / n, exponent⟩
  let above : Decimal := ⟨num * d / n + 1, exponent⟩
  if roundDiv (num * d) n = below.digits then [below, above] else [above, below]

/-- The neighbour with `count` digits that reads back as `x`; if both do, the first. -/
def candidate? (x : Binary64) (num den count : Nat) : Option Decimal :=
  (neighbours num den count).find? (·.readsAs x)

/-- The shortest decimal that reads back as the positive number
`mantissa * 2 ^ exponent`; seventeen digits always suffice. -/
def shortest (mantissa : Nat) (exponent : Int) : Decimal :=
  let x := Binary64.finite false mantissa exponent
  let (num, den) := scaled mantissa 2 exponent
  match (List.range' 1 17).findSome? (candidate? x num den) with
  | some d => d.trim 17
  | none => ⟨0, 0⟩

/-- An exponent with its sign and at least two digits. -/
def exponentText (exponent : Int) : String :=
  let digits := toString exponent.natAbs
  (if exponent < 0 then "-" else "+") ++ (if digits.length < 2 then "0" ++ digits else digits)

/-- So many zeros. -/
def zeros (count : Nat) : String :=
  String.ofList (List.replicate count '0')

/-- A decimal with its point placed. -/
def Decimal.text (d : Decimal) : String :=
  let digits := (toString d.digits).toList
  let leading := d.exponent + digits.length - 1
  if leading < -4 || 16 ≤ leading then
    let tail := digits.drop 1
    String.ofList (digits.take 1) ++ (if tail.isEmpty then "" else "." ++ String.ofList tail)
      ++ "e" ++ exponentText leading
  else if leading < 0 then
    "0." ++ zeros (-leading - 1).toNat ++ String.ofList digits
  else if 0 ≤ d.exponent then
    String.ofList digits ++ zeros d.exponent.toNat ++ ".0"
  else
    let whole := (leading + 1).toNat
    String.ofList (digits.take whole) ++ "." ++ String.ofList (digits.drop whole)

/-- A binary number as text. -/
def Binary64.text : Binary64 → String
  | .nan => "nan"
  | .infinite neg => if neg then "-inf" else "inf"
  | .finite neg mantissa exponent =>
    (if neg then "-" else "")
      ++ (if mantissa = 0 then "0.0" else (shortest mantissa exponent).text)

end NumBool.Number
