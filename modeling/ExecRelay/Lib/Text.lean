/-
**Text functions of the standard library.**

`strings.TrimSpace` over the UTF-8 form of a text, and `strings.ToUpper` as far as its result can be
an ASCII text, `strconv.ParseInt` in base 10. `header.Get` reads a list of header lines without regard
to the case of their names.
-/

import ExecRelay.Lib.Bytes

namespace ExecRelay.Lib

/-! ### White space -/

/-- The UTF-8 forms of the characters that `unicode.IsSpace` accepts. -/
def spaces : List Bytes :=
  [[0x09], [0x0A], [0x0B], [0x0C], [0x0D], [0x20], [0xC2, 0x85], [0xC2, 0xA0], [0xE1, 0x9A, 0x80],
    [0xE2, 0x80, 0x80], [0xE2, 0x80, 0x81], [0xE2, 0x80, 0x82], [0xE2, 0x80, 0x83],
    [0xE2, 0x80, 0x84], [0xE2, 0x80, 0x85], [0xE2, 0x80, 0x86], [0xE2, 0x80, 0x87],
    [0xE2, 0x80, 0x88], [0xE2, 0x80, 0x89], [0xE2, 0x80, 0x8A], [0xE2, 0x80, 0xA8],
    [0xE2, 0x80, 0xA9], [0xE2, 0x80, 0xAF], [0xE2, 0x81, 0x9F], [0xE3, 0x80, 0x80]]

def stripFront (marks : List Bytes) : Nat → Bytes → Bytes
  | 0, text => text
  | fuel + 1, text =>
    match marks.find? (·.isPrefixOf text) with
    | some mark => stripFront marks fuel (text.drop mark.length)
    | none => text

/-- `strings.TrimSpace`. -/
def trimSpace (text : Bytes) : Bytes :=
  let front := stripFront spaces text.length text
  (stripFront (spaces.map List.reverse) front.length front.reverse).reverse

/-! ### Upper case -/

/-- `strings.ToUpper` for the letters with an ASCII capital: the ASCII letters, the long s and the
dotless i. Other characters stay outside ASCII and are left as they are. -/
def upperASCII : Bytes → Bytes
  | 0xC5 :: 0xBF :: rest => 0x53 :: upperASCII rest
  | 0xC4 :: 0xB1 :: rest => 0x49 :: upperASCII rest
  | byte :: rest => (if 97 ≤ byte ∧ byte ≤ 122 then byte - 32 else byte) :: upperASCII rest
  | [] => []

/-! ### Numbers -/

def isDecimalDigit (byte : UInt8) : Bool :=
  48 ≤ byte && byte ≤ 57

/-- `strconv.ParseInt(text, 10, 64)`: an optional sign and digits, in the range of 64 bits. -/
def parseInt64 (text : Bytes) : Option Int :=
  let digits : Bytes := match text with
    | 43 :: rest => rest
    | 45 :: rest => rest
    | _ => text
  let magnitude : Int := digits.foldl (fun value digit => 10 * value + (digit.toNat - 48)) 0
  let value := if text.head? = some 45 then -magnitude else magnitude
  if digits ≠ [] ∧ digits.all isDecimalDigit ∧ -2 ^ 63 ≤ value ∧ value < 2 ^ 63 then some value
  else none

example : parseInt64 (lit "-120") = some (-120) := by decide

/-! ### Headers -/

abbrev Header := List (Bytes × Bytes)

namespace Header

def get (header : Header) (name : String) : Bytes :=
  match header.find? fun line => lowerASCII line.1 = lowerASCII (lit name) with
  | some line => line.2
  | none => []

end Header

end ExecRelay.Lib
