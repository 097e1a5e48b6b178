import Drydock.Text.Blank
import Drydock.Toml.Value

/-!
# Numbers, moments and truth values

A scalar that is not a string is a run of letters, digits and `+ - _ . :`.  `scalar?` says which
value such a run is.

* integers — decimal without leading zeros, hexadecimal, octal or binary, of 64 bits with a sign;
* floats — a decimal with a fraction or an exponent, `inf` and `nan`; one that is too large for a
  double counts as an error;
* moments — a date, a time, or a date with a time and an offset.
-/

namespace Drydock.Toml

/-- Characters of a scalar that is not a string. -/
def isScalarChar (c : Char) : Bool := c.isAlphanum || c ∈ ['+', '-', '_', '.', ':']

/-- Groups of digits with single underscores between them. -/
def isGrouped (isDigit : Char → Bool) (cs : List Char) : Bool :=
  (Text.splitChars '_' cs).all fun group => group ≠ [] && group.all isDigit

/-- A text without the sign in front, if there is one. -/
def withoutSign : List Char → List Char
  | '+' :: rest => rest
  | '-' :: rest => rest
  | cs => cs

/-- A decimal without a leading zero. -/
def isWhole (cs : List Char) : Bool :=
  isGrouped Char.isDigit cs && (cs = ['0'] || cs.head? ≠ some '0')

/-- The value of a digit; letters count on from ten. -/
def digitValue (c : Char) : Nat :=
  if c.isDigit then c.toNat - '0'.toNat else c.toLower.toNat - 'a'.toNat + 10

/-- The value of digits in a base; underscores do not count. -/
def naturalOf (base : Nat) (cs : List Char) : Nat :=
  (cs.filter (· ≠ '_')).foldl (fun n c => base * n + digitValue c) 0

/-- The least natural number that is too large for an integer. -/
def integerLimit : Nat := Nat.pow 2 63

/-- Whether digits behind the mark of a base are an integer of 64 bits. -/
def isBased (base : Nat) (cs : List Char) : Bool :=
  isGrouped (fun c => (c.isDigit || c.isAlpha) && digitValue c < base) cs &&
    naturalOf base cs < integerLimit

/-- Whether a text is an integer. -/
def isInteger : List Char → Bool
  | '0' :: 'x' :: digits => isBased 16 digits
  | '0' :: 'o' :: digits => isBased 8 digits
  | '0' :: 'b' :: digits => isBased 2 digits
  | cs =>
      let body := withoutSign cs
      isWhole body &&
        (if cs.head? = some '-' then naturalOf 10 body ≤ integerLimit
          else naturalOf 10 body < integerLimit)

/-- The parts of a decimal number. -/
structure Decimal where
  negative : Bool
  whole : List Char
  fraction : Option (List Char)
  exponent : Option (List Char)

/-- The parts of a text before and after the first character of a kind. -/
def cutAt (isMark : Char → Bool) (cs : List Char) : List Char × Option (List Char) :=
  match cs.dropWhile (!isMark ·) with
  | [] => (cs, none)
  | _ :: rest => (cs.takeWhile (!isMark ·), some rest)

/-- Cuts a text at its exponent mark and at its point. -/
def Decimal.ofChars (cs : List Char) : Decimal :=
  let (mantissa, exponent) := cutAt (· ∈ ['e', 'E']) (withoutSign cs)
  let (whole, fraction) := cutAt (· = '.') mantissa
  { negative := cs.head? = some '-', whole, fraction, exponent }

namespace Decimal

/-- Whether the parts are written as a float is. -/
def isFloat (d : Decimal) : Bool :=
  (d.fraction.isSome || d.exponent.isSome) && isWhole d.whole &&
    d.fraction.all (isGrouped Char.isDigit) &&
    d.exponent.all fun digits => isGrouped Char.isDigit (withoutSign digits)

/-- All digits of the number, as if there were no point. -/
def digits (d : Decimal) : List Char :=
  (d.whole ++ d.fraction.getD []).filter (· ≠ '_')

/-- The power of ten by which `digits` is multiplied. -/
def scale (d : Decimal) : Int :=
  let exponent := d.exponent.getD []
  let size : Int := naturalOf 10 (withoutSign exponent)
  let signed := if exponent.head? = some '-' then -size else size
  signed - ((d.fraction.getD []).filter (· ≠ '_')).length

/-- Whether a number is rounded to infinity in double precision: it reaches the middle between the
largest double and the next power of two. -/
def overflows (d : Decimal) : Bool :=
  let value := naturalOf 10 d.digits
  let limit := (Nat.pow 2 54 - 1) * Nat.pow 2 970
  if value = 0 then false
  else if 400 < d.scale then true
  else if 0 ≤ d.scale then limit ≤ value * Nat.pow 10 d.scale.toNat
  else if d.digits.length < (-d.scale).toNat then false
  else limit * Nat.pow 10 (-d.scale).toNat ≤ value

end Decimal

/-- Whether a text is a float. -/
def isFloat (cs : List Char) : Bool :=
  withoutSign cs ∈ [['i', 'n', 'f'], ['n', 'a', 'n']] ||
    (let d := Decimal.ofChars cs
     d.isFloat && (d.negative || !d.overflows))

/-! ## Moments -/

/-- The value of exactly `count` digits. -/
def fixed? (count : Nat) (cs : List Char) : Option Nat :=
  if cs.length = count ∧ cs.all Char.isDigit then some (naturalOf 10 cs) else none

/-- Whether exactly two digits have a value up to `limit`. -/
def isTwoDigit (low high : Nat) (cs : List Char) : Bool :=
  (fixed? 2 cs).any fun n => low ≤ n && n ≤ high

/-- The number of days of a month. -/
def daysOf (year month : Nat) : Nat :=
  if month = 2 then
    if (year % 4 = 0 ∧ year % 100 ≠ 0) ∨ year % 400 = 0 then 29 else 28
  else if month ∈ [4, 6, 9, 11] then 30
  else 31

/-- Whether a text is a date of the calendar. -/
def isDate (cs : List Char) : Bool :=
  match Text.splitChars '-' cs with
  | [year, month, day] =>
      match fixed? 4 year, fixed? 2 month with
      | some year, some month =>
          1 ≤ month && month ≤ 12 && isTwoDigit 1 (daysOf year month) day
      | _, _ => false
  | _ => false

/-- Whether a text is a time of day, with seconds and perhaps parts of a second. -/
def isTime (cs : List Char) : Bool :=
  match Text.splitChars ':' cs with
  | [hour, minute, rest] =>
      let (second, part) := cutAt (· = '.') rest
      isTwoDigit 0 23 hour && isTwoDigit 0 59 minute && isTwoDigit 0 60 second &&
        part.all fun digits => digits ≠ [] && digits.all Char.isDigit
  | _ => false

/-- Whether a text is a distance from universal time in hours and minutes. -/
def isOffset (cs : List Char) : Bool :=
  match Text.splitChars ':' cs with
  | [hour, minute] => isTwoDigit 0 23 hour && isTwoDigit 0 59 minute
  | _ => false

/-- Whether a text is a time of day, perhaps with an offset. -/
def isZonedTime (cs : List Char) : Bool :=
  let (time, offset) := cutAt (· ∈ ['+', '-']) cs
  match offset with
  | some offset => isTime time && isOffset offset
  | none => isTime cs || (cs.getLast?.any (· ∈ ['Z', 'z']) && isTime cs.dropLast)

/-- Whether a text is a moment in one word. -/
def isMoment (cs : List Char) : Bool :=
  let (date, time) := cutAt (· ∈ ['T', 't']) cs
  isTime cs ||
    match time with
    | some time => isDate date && isZonedTime time
    | none => isDate cs

/-- The value of a run of scalar characters. -/
def scalar? (cs : List Char) : Option Value :=
  if cs = ['t', 'r', 'u', 'e'] then some (.boolean true)
  else if cs = ['f', 'a', 'l', 's', 'e'] then some (.boolean false)
  else if isInteger cs || isFloat cs then some (.number (.ofList cs))
  else if isMoment cs then some (.moment (.ofList cs))
  else none

end Drydock.Toml
