/-!
# Binary numbers of 64 bits

A tree may carry decimal fractions that do not belong to the language.  They are held
in binary with 53 significant bits.  A finite number is kept as an exact product
`mantissa * 2 ^ exponent`, in the one form in which the mantissa has 53 bits or the
exponent is the least one; so two finite numbers of one sign are equal exactly when
their fields are.
-/

namespace NumBool.Number

/-- A number of 64 bits: `± mantissa * 2 ^ exponent`, or beyond all finite ones, or no
number at all. -/
inductive Binary64 where
  | finite (neg : Bool) (mantissa : Nat) (exponent : Int)
  | infinite (neg : Bool)
  | nan
  deriving DecidableEq, Repr

/-- A positive rational number `num * base ^ exponent` as a fraction. -/
def scaled (num base : Nat) (exponent : Int) : Nat × Nat :=
  if 0 ≤ exponent then (num * base.pow exponent.toNat, 1)
  else (num, base.pow (-exponent).toNat)

/-- The integer nearest to `num / den`; of two equally near ones the even one. -/
def roundDiv (num den : Nat) : Nat :=
  let quotient := num / den
  let twice := 2 * (num % den)
  if twice < den then quotient
  else if den < twice then quotient + 1
  else if quotient % 2 = 0 then quotient
  else quotient + 1

namespace Binary64

/-- The least exponent. -/
def minExponent : Int := -1074

/-- The greatest exponent. -/
def maxExponent : Int := 971

/-- The number of significant bits. -/
def precision : Nat := 53

/-- The exponent at which `num / den` is rounded: the least one at which it has at
most 53 bits before the point. -/
def exponentFor (num den : Nat) : Int :=
  let guess := max minExponent ((num.log2 : Int) - den.log2 - precision)
  let (n, d) := scaled den 2 guess
  if num * d / n < Nat.pow 2 precision then guess else guess + 1

/-- The number nearest to the fraction `num / den`. -/
def ofFraction (neg : Bool) (num den : Nat) : Binary64 :=
  let exponent := exponentFor num den
  let (n, d) := scaled den 2 exponent
  let mantissa := roundDiv (num * d) n
  let (mantissa, exponent) :=
    if mantissa = Nat.pow 2 precision then (Nat.pow 2 (precision - 1), exponent + 1)
    else (mantissa, exponent)
  if maxExponent < exponent then .infinite neg else .finite neg mantissa exponent

/-- The number of decimal digits of `n`. -/
def digitCount (n : Nat) : Nat :=
  (Nat.toDigits 10 n).length

/-- The number nearest to `± digits * 10 ^ exponent`.  Far beyond the range of the
finite numbers the answer is known without a division. -/
def ofDecimal (neg : Bool) (digits : Nat) (exponent : Int) : Binary64 :=
  let magnitude := (digitCount digits : Int) + exponent
  if digits = 0 || magnitude < -400 then .finite neg 0 minExponent
  else if 400 < magnitude then .infinite neg
  else
    let (num, den) := scaled digits 10 exponent
    ofFraction neg num den

/-- Whether the number is exactly the integer `n`; both zeros are. -/
def isInt (x : Binary64) (n : Int) : Bool :=
  match x with
  | nan => false
  | infinite _ => false
  | finite neg mantissa exponent =>
    let (num, den) := scaled mantissa 2 exponent
    (if neg then -(num : Int) else num) = n * den

/-- Numeric equality: both zeros are equal, and what is no number equals nothing. -/
def same : Binary64 → Binary64 → Bool
  | finite neg mantissa exponent, finite neg' mantissa' exponent' =>
    mantissa = mantissa' && (mantissa = 0 || (neg = neg' && exponent = exponent'))
  | infinite neg, infinite neg' => neg = neg'
  | _, _ => false

end Binary64

end NumBool.Number
