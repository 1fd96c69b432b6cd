import FluentSql.Decimal.Basic

/-! Reading decimals from text: an optional sign, digits with at most one point, underscores
between digits, and as a second try a power of ten after `e`. More digits than fit are rounded
when they stand after the point and refused when they stand before it. -/
namespace FluentSql.Decimal

inductive ReadError
  | empty
  | noDigits
  | unknownCharacter
  | secondPoint
  | leadingUnderscore
  | tooManyDigits
  | roundingOverflow
  | scaleTooLarge (power : Nat)
  | malformedPower
  | tooLarge
  deriving DecidableEq

def ReadError.message : ReadError → String
  | .empty => "Invalid decimal: empty"
  | .noDigits => "Invalid decimal: no digits found"
  | .unknownCharacter => "Invalid decimal: unknown character"
  | .secondPoint => "Invalid decimal: two decimal points"
  | .leadingUnderscore => "Invalid decimal: must start lead with a number"
  | .tooManyDigits => "Invalid decimal: overflow from too many digits"
  | .roundingOverflow => "Invalid decimal: overflow from mantissa after rounding"
  | .scaleTooLarge power =>
    "Scale exceeds the maximum precision allowed: " ++ toString power ++ " > 28"
  | .malformedPower => "Failed to parse"
  | .tooLarge => "Number exceeds maximum value that can be represented."

abbrev Unsigned := Nat × Nat

def strayError (c : Char) : ReadError := if c = '.' then .secondPoint else .unknownCharacter

/-- Digits and underscores may follow the digit that rounded. -/
def checkTail : List Char → Except ReadError Unit
  | [] => .ok ()
  | c :: rest => if c.isDigit ∨ c = '_' then checkTail rest else .error (strayError c)

/-- Rounds half up by the first digit that does not fit. When that carries past 96 bits, one
digit more is given up. -/
def roundLast (coefficient scale digit : Nat) : Except ReadError Unsigned :=
  let rounded := if 5 ≤ digit then coefficient + 1 else coefficient
  if rounded < 2 ^ 96 then .ok (rounded,scale)
  else if scale = 0 then .error .roundingOverflow
  else .ok ((rounded + 4) / 10,scale - 1)

/-- The digit that rounds; an underscore in its place counts as zero. -/
def roundingDigit (c : Char) : Except ReadError Nat :=
  if c.isDigit then .ok (Numeral.digitValue c)
  else if c = '_' then .ok 0 else .error (strayError c)

/-- Rounds by the character behind the last digit that fits, then looks at the rest. -/
def roundBy (coefficient scale : Nat) (c : Char) (rest : List Char) :
    Except ReadError Unsigned := do
  let digit ← roundingDigit c
  let rounded ← roundLast coefficient scale digit
  checkTail rest
  return rounded

/-- What follows 28 fractional digits. Behind a `wide` coefficient underscores may stand before
the digit that rounds. -/
def roundAtCapacity (coefficient : Nat) (wide : Bool) : List Char → Except ReadError Unsigned
  | [] => .ok (coefficient,28)
  | c :: rest =>
    if c = '_' ∧ wide then roundAtCapacity coefficient wide rest
    else roundBy coefficient 28 c rest

/-- Coefficients from here on are wide: another digit and a byte's worth of margin might not
fit in 64 bits. -/
def wideFrom : Nat := (2 ^ 64 - 1) / 10 - 255

def readFraction (coefficient scale : Nat) (seen : Bool) :
    List Char → Except ReadError Unsigned
  | [] => if seen then .ok (coefficient,scale) else .error .noDigits
  | c :: rest =>
    if c.isDigit then
      let next := coefficient * 10 + Numeral.digitValue c
      if 2 ^ 96 ≤ next then roundBy coefficient scale c rest
      else if scale = 27 then roundAtCapacity next (wideFrom ≤ coefficient) rest
      else readFraction next (scale + 1) true rest
    else if c ≠ '_' then .error (strayError c)
    else if seen then readFraction coefficient scale seen rest
    else .error .leadingUnderscore

def readWhole (coefficient : Nat) (seen : Bool) : List Char → Except ReadError Unsigned
  | [] => if seen then .ok (coefficient,0) else .error .noDigits
  | c :: rest =>
    if c.isDigit then
      let next := coefficient * 10 + Numeral.digitValue c
      if 2 ^ 96 ≤ next then .error .tooManyDigits else readWhole next true rest
    else if c = '.' then readFraction coefficient 0 seen rest
    else if c ≠ '_' then .error .unknownCharacter
    else if seen then readWhole coefficient seen rest
    else .error .leadingUnderscore

/-- A zero that is read has no sign. -/
def signed (negative : Bool) (u : Unsigned) : Except ReadError Decimal :=
  match ofParts? (negative && u.1 != 0) u.1 u.2 with
  | some d => .ok d
  | none => .error .tooLarge

def readPlain : List Char → Except ReadError Decimal
  | [] => .error .empty
  | '-' :: rest => readWhole 0 false rest >>= signed true
  | '+' :: rest => readWhole 0 false rest >>= signed false
  | cs => readWhole 0 false cs >>= signed false

def readPower (cs : List Char) : Except ReadError (Bool × Nat) :=
  let (negative,digits) := match cs with
    | '-' :: rest => (true,rest)
    | rest => (false,rest)
  match Numeral.readNat (2 ^ 32 - 1) digits with
  | .ok n => .ok (negative,n)
  | .error _ => .error .malformedPower

/-- Divides by a power of ten, giving up the fractional digits beyond 28. -/
def shiftDown (d : Decimal) (power : Nat) : Except ReadError Decimal :=
  if 28 < power then .error (.scaleTooLarge power)
  else
    let kept := if 28 < d.scale + power then d.rescale (28 - power) else d
    match ofParts? kept.negative kept.coefficient (min 28 (kept.scale + power)) with
    | some shifted => .ok shifted
    | none => .error .tooLarge

def shiftUp (d : Decimal) (power : Nat) : Except ReadError Decimal :=
  if _ : power ≤ d.scale then
    .ok ⟨d.negative,d.coefficient,d.scale - power,d.coefficient_lt,
      Nat.le_trans (Nat.sub_le _ _) d.scale_le⟩
  else if 28 < power then .error (.scaleTooLarge power)
  else match ofParts? d.negative (d.coefficient * Nat.pow 10 (power - d.scale)) 0 with
    | some shifted => .ok shifted
    | none => .error .tooLarge

def isPowerMark (c : Char) : Bool := c == 'e' || c == 'E'

def readScientific (cs : List Char) : Except ReadError Decimal := do
  let d ← readPlain (cs.takeWhile (!isPowerMark ·))
  let (negative,power) ← readPower ((cs.dropWhile (!isPowerMark ·)).drop 1)
  if negative then shiftDown d power else shiftUp d power

/-- The error of a text without a power of ten is that of its digits. -/
def read (cs : List Char) : Except ReadError Decimal :=
  match readPlain cs with
  | .ok d => .ok d
  | .error e => if cs.any isPowerMark then readScientific cs else .error e

end FluentSql.Decimal
