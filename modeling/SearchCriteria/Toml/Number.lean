import SearchCriteria.Toml.Quoted

/-!
# Numbers

Integers have 64 bits and a sign; decimals may have a fraction and an exponent.
Single underscores may stand between digits. A decimal number has no zero in front.
-/

namespace SearchCriteria.Toml

/-- A number with a fraction or an exponent, or one of the special ones. -/
inductive Decimal where
  | nan
  | infinite (negative : Bool)
  /-- The coefficient times ten to the power of the exponent. -/
  | finite (negative : Bool) (coefficient : Nat) (exponent : Int)

/-- The digits of a number, without the underscores between them. -/
def ungroup (isDigit : Char → Bool) : List Char → Option (List Char)
  | [] => none
  | [c] => if isDigit c then some [c] else none
  | c :: '_' :: rest => if isDigit c then (ungroup isDigit rest).map (c :: ·) else none
  | c :: next :: rest =>
    if isDigit c then (ungroup isDigit (next :: rest)).map (c :: ·) else none

/-- The digits of a decimal number without sign. -/
def decimalDigits : List Char → Option (List Char)
  | ['0'] => some ['0']
  | '0' :: _ => none
  | text => ungroup Char.isDigit text

/-- Whether a minus sign stands in front, and the text behind the sign. -/
def splitSign : List Char → Bool × List Char
  | '-' :: rest => (true, rest)
  | '+' :: rest => (false, rest)
  | text => (false, text)

/-- The integer, if it has 64 bits. -/
def inRange (number : Int) : Option Int :=
  if -0x8000000000000000 ≤ number ∧ number < 0x8000000000000000 then some number else none

/-- The integer of a word. Without a sign it may have a base: sixteen, eight or two. -/
def integer? : List Char → Option Int
  | '0' :: 'x' :: digits => do
    let digits ← ungroup (fun c => (hexDigit? c).isSome) digits
    let number ← hexNumber? digits
    inRange number
  | '0' :: 'o' :: digits => do
    let digits ← ungroup (fun c => '0' ≤ c ∧ c ≤ '7') digits
    inRange (Nat.ofDigitChars 8 digits 0)
  | '0' :: 'b' :: digits => do
    let digits ← ungroup (fun c => c = '0' ∨ c = '1') digits
    inRange (Nat.ofDigitChars 2 digits 0)
  | word => do
    let (negative, digits) := splitSign word
    let digits ← decimalDigits digits
    let number : Int := Nat.ofDigitChars 10 digits 0
    inRange (if negative then -number else number)

/-- The exponent behind the letter `e`. -/
def exponent? (word : List Char) : Option Int := do
  let (negative, digits) := splitSign word
  let digits ← ungroup Char.isDigit digits
  let number : Int := Nat.ofDigitChars 10 digits 0
  some (if negative then -number else number)

/-- The exponent that ends a number, which may be missing. -/
def exponentPart? : List Char → Option Int
  | [] => some 0
  | mark :: word => if mark = 'e' ∨ mark = 'E' then exponent? word else none

/-- Whether a double-precision number cannot hold the product of the coefficient and
the power of ten: from half a unit above the greatest such number on. Far exponents
are told by the number of digits. -/
def overflows (coefficient : Nat) (exponent : Int) : Bool :=
  let bound := Nat.pow 2 1024 - Nat.pow 2 970
  let length := (Nat.toDigits 10 coefficient).length + exponent
  if coefficient = 0 ∨ length < 309 then false
  else if 309 < length then true
  else bound * Nat.pow 10 (-exponent).toNat ≤ coefficient * Nat.pow 10 exponent.toNat

/-- The number with a fraction or an exponent. One too great for double precision is
refused, but not one too small. -/
def finite? (negative : Bool) (word : List Char) : Option Decimal := do
  let (whole, rest) := word.span fun c => c ≠ '.' ∧ c ≠ 'e' ∧ c ≠ 'E'
  let whole ← decimalDigits whole
  let (fraction, exponent) ← match rest with
    | [] => none
    | '.' :: rest =>
      let (fraction, rest) := rest.span fun c => c ≠ 'e' ∧ c ≠ 'E'
      do some (← ungroup Char.isDigit fraction, ← exponentPart? rest)
    | rest => do some ([], ← exponentPart? rest)
  let coefficient := Nat.ofDigitChars 10 (whole ++ fraction) 0
  let exponent := exponent - fraction.length
  if !negative && overflows coefficient exponent then none
  else some (.finite negative coefficient exponent)

/-- The decimal of a word. -/
def decimal? (word : List Char) : Option Decimal :=
  let (negative, word) := splitSign word
  match word with
  | ['n', 'a', 'n'] => some .nan
  | ['i', 'n', 'f'] => some (.infinite negative)
  | _ => finite? negative word

end SearchCriteria.Toml
