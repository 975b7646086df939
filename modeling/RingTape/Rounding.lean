/-!
# Rounding to a number of significant bits

Shares of a total are computed the way binary floating point does it: every operand and every
result is rounded to 53 significant bits, a half going to the even neighbour. Here a number is an
exact quotient of naturals, and rounding is a function on quotients, so the text of a share is
fixed by integer arithmetic alone.
-/

namespace RingTape

/-- The quotient `num / den` rounded to the nearest natural, a half to the even neighbour. -/
def roundHalfEven (num den : Nat) : Nat :=
  let whole := num / den
  let rest := num % den
  if 2 * rest < den then whole
  else if den < 2 * rest then whole + 1
  else whole + whole % 2

/-- A nonnegative number, held as an exact quotient. -/
structure Ratio where
  /-- What is divided. -/
  num : Nat
  /-- What it is divided by. -/
  den : Nat

namespace Ratio

/-- The number of significant bits that are kept. -/
def precision : Nat := 53

/-- The number times two to the power `e`. -/
def scale (q : Ratio) (e : Int) : Ratio :=
  if 0 ≤ e then ⟨q.num <<< e.toNat, q.den⟩ else ⟨q.num, q.den <<< (-e).toNat⟩

/-- The exponent that brings a positive number into the range from `2 ^ 52` up to `2 ^ 53`, so
that rounding the scaled number to an integer keeps exactly `precision` bits. The lengths of
numerator and denominator fix it up to one. -/
def normalExponent (q : Ratio) : Int :=
  let guess : Int := (precision : Int) - 1 - ((Nat.log2 q.num : Int) - (Nat.log2 q.den : Int))
  let scaled := q.scale guess
  if scaled.num < scaled.den <<< (precision - 1) then guess + 1 else guess

/-- **Nearest representable number.** Rounds to `precision` significant bits, a half to even. -/
def rounded (q : Ratio) : Ratio :=
  if q.num = 0 then ⟨0, 1⟩
  else
    let e := q.normalExponent
    let scaled := q.scale e
    scale ⟨roundHalfEven scaled.num scaled.den, 1⟩ (-e)

/-- A natural number, rounded. -/
def ofNat (n : Nat) : Ratio :=
  rounded ⟨n, 1⟩

/-- The rounded product of two numbers. -/
def mul (p q : Ratio) : Ratio :=
  rounded ⟨p.num * q.num, p.den * q.den⟩

/-- The rounded ratio of two numbers. -/
def div (p q : Ratio) : Ratio :=
  rounded ⟨p.num * q.den, p.den * q.num⟩

/-- The number with one digit after the point. The exact value is rounded, a half to even. -/
def oneDecimal (q : Ratio) : String :=
  let tenths := roundHalfEven (10 * q.num) q.den
  Nat.repr (tenths / 10) ++ "." ++ Nat.repr (tenths % 10)

end Ratio

end RingTape
