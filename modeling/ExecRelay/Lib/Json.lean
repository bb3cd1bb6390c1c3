/-
**Decoding JSON.**

`unmarshal` is `json.Unmarshal` of the Go library into a structure whose members are strings. The text
is cut into tokens (`tokenize`, a machine over the bytes), the tokens are put together to a value
(`build`, a machine over the tokens with a stack of open containers), and the members of the object
are assigned to the fields of the structure one after the other. A key that is no field's name matches
a field whose name differs by case only; other keys are passed over, `null` leaves a field as it is,
and a value of another type is an error.
-/

import ExecRelay.Lib.Text
import ExecRelay.Lib.Unquote

namespace ExecRelay.Lib.Json

/-! ### Tokens -/

inductive Token
  | openBrace | closeBrace | openBracket | closeBracket | colon | comma
  | null
  | bool (value : Bool)
  | number (text : Bytes)
  | string (text : Bytes)
deriving DecidableEq, Repr

def punctuation (byte : UInt8) : Option Token :=
  if byte = 123 then some .openBrace
  else if byte = 125 then some .closeBrace
  else if byte = 91 then some .openBracket
  else if byte = 93 then some .closeBracket
  else if byte = 58 then some .colon
  else if byte = 44 then some .comma
  else none

def isSpace (byte : UInt8) : Bool :=
  byte = 32 || byte = 9 || byte = 10 || byte = 13

def isDigits (text : Bytes) : Bool :=
  !text.isEmpty && text.all isDecimalDigit

/-- An exponent behind its `e`, with or without a sign. -/
def isExponent : Bytes → Bool
  | 43 :: digits => isDigits digits
  | 45 :: digits => isDigits digits
  | digits => isDigits digits

/-- What may stand behind the integer part of a number: a fraction and an exponent, or one of them. -/
def isNumberTail : Bytes → Bool
  | [] => true
  | 46 :: rest =>
    let fraction := rest.takeWhile isDecimalDigit
    !fraction.isEmpty && match rest.dropWhile isDecimalDigit with
      | [] => true
      | mark :: exponent => (mark = 101 || mark = 69) && isExponent exponent
  | mark :: exponent => (mark = 101 || mark = 69) && isExponent exponent

/-- A number without its sign: no zero stands in front of other digits. -/
def isMagnitude : Bytes → Bool
  | 48 :: rest => isNumberTail rest
  | digit :: rest => isDecimalDigit digit && isNumberTail (rest.dropWhile isDecimalDigit)
  | [] => false

def isNumber : Bytes → Bool
  | 45 :: magnitude => isMagnitude magnitude
  | magnitude => isMagnitude magnitude

/-- A literal or a number. -/
def wordToken (word : Bytes) : Option Token :=
  if word = lit "null" then some .null
  else if word = lit "true" then some (.bool true)
  else if word = lit "false" then some (.bool false)
  else if isNumber word then some (.number word)
  else none

/-- Where the text has been read to: outside of strings, with the word that is being read, inside of a
string, or behind a backslash in it. -/
inductive Lexer
  | outside (tokens : List Token) (word : Bytes)
  | string (tokens : List Token) (raw : Bytes)
  | escape (tokens : List Token) (raw : Bytes)

def flush (tokens : List Token) (word : Bytes) : Option (List Token) :=
  if word = [] then some tokens else (wordToken word).map fun token => tokens ++ [token]

def lexStep : Lexer → UInt8 → Option Lexer
  | .outside tokens word, byte =>
    if isSpace byte then (flush tokens word).map fun tokens => .outside tokens []
    else if byte = quote then (flush tokens word).map fun tokens => .string tokens []
    else match punctuation byte with
      | some token => (flush tokens word).map fun tokens => .outside (tokens ++ [token]) []
      | none => some (.outside tokens (word ++ [byte]))
  | .string tokens raw, byte =>
    if byte = quote then
      (unquote raw).map fun text => .outside (tokens ++ [.string text]) []
    else if byte = backslash then some (.escape tokens raw)
    else some (.string tokens (raw ++ [byte]))
  | .escape tokens raw, byte => some (.string tokens (raw ++ [backslash, byte]))

def Lexer.finish : Lexer → Option (List Token)
  | .outside tokens word => flush tokens word
  | _ => none

def tokenize (text : Bytes) : Option (List Token) :=
  (text.foldlM lexStep (.outside [] [])).bind Lexer.finish

/-! ### Values -/

inductive Value
  | null
  | bool (value : Bool)
  | number (text : Bytes)
  | string (text : Bytes)
  | array (elements : List Value)
  | object (members : List (Bytes × Value))

/-- A container that is open, with what it holds so far, the latest first. -/
inductive Frame
  | array (elements : List Value)
  | object (members : List (Bytes × Value)) (key : Bytes)

/-- What has been read, and so what may come. -/
inductive Builder
  /-- A value has to come. -/
  | value (frames : List Frame)
  /-- An array was opened. -/
  | elementOrEnd (frames : List Frame)
  /-- An object was opened. -/
  | keyOrEnd (frames : List Frame)
  /-- A member was followed by a comma. -/
  | key (members : List (Bytes × Value)) (frames : List Frame)
  | colon (members : List (Bytes × Value)) (key : Bytes) (frames : List Frame)
  /-- A value is complete. -/
  | complete (value : Value) (frames : List Frame)

/-- `maxNestingDepth`. -/
def maxDepth : Nat := 10000

def beginValue (frames : List Frame) : Token → Option Builder
  | .null => some (.complete .null frames)
  | .bool value => some (.complete (.bool value) frames)
  | .number text => some (.complete (.number text) frames)
  | .string text => some (.complete (.string text) frames)
  | .openBrace => if frames.length < maxDepth then some (.keyOrEnd frames) else none
  | .openBracket => if frames.length < maxDepth then some (.elementOrEnd frames) else none
  | _ => none

def buildStep : Builder → Token → Option Builder
  | .value frames, token => beginValue frames token
  | .elementOrEnd frames, .closeBracket => some (.complete (.array []) frames)
  | .elementOrEnd frames, token => beginValue (.array [] :: frames) token
  | .keyOrEnd frames, .closeBrace => some (.complete (.object []) frames)
  | .keyOrEnd frames, .string key => some (.colon [] key frames)
  | .key members frames, .string key => some (.colon members key frames)
  | .colon members key frames, .colon => some (.value (.object members key :: frames))
  | .complete value (.array elements :: frames), .comma =>
    some (.value (.array (value :: elements) :: frames))
  | .complete value (.array elements :: frames), .closeBracket =>
    some (.complete (.array (value :: elements).reverse) frames)
  | .complete value (.object members key :: frames), .comma =>
    some (.key ((key, value) :: members) frames)
  | .complete value (.object members key :: frames), .closeBrace =>
    some (.complete (.object ((key, value) :: members).reverse) frames)
  | _, _ => none

def build (tokens : List Token) : Option Value :=
  match tokens.foldlM buildStep (.value []) with
  | some (.complete value []) => some value
  | _ => none

def parse (text : Bytes) : Option Value :=
  (tokenize text).bind build

/-! ### Structures -/

/-- A name without regard to case, as far as that can make it an ASCII name: the sign of the kelvin
and the long s are letters too. -/
def foldName : Bytes → Bytes
  | 0xE2 :: 0x84 :: 0xAA :: rest => 75 :: foldName rest
  | 0xC5 :: 0xBF :: rest => 83 :: foldName rest
  | byte :: rest => (if 97 ≤ byte ∧ byte ≤ 122 then byte - 32 else byte) :: foldName rest
  | [] => []

def fieldFor (names : List Bytes) (key : Bytes) : Option Bytes :=
  if key ∈ names then some key else names.find? fun name => foldName name = foldName key

abbrev Fields := List (Bytes × Bytes)

def assign (names : List Bytes) (fields : Fields) (member : Bytes × Value) : Option Fields :=
  match fieldFor names member.1, member.2 with
  | none, _ => some fields
  | some _, .null => some fields
  | some name, .string text => some ((name, text) :: fields)
  | some _, _ => none

def assignAll (names : List Bytes) : Value → Option Fields
  | .null => some []
  | .object members => members.foldlM (assign names) []
  | _ => none

/-- `json.Unmarshal` into a structure with the fields `names`. -/
def unmarshal (names : List Bytes) (text : Bytes) : Option Fields :=
  (parse text).bind (assignAll names)

def Fields.get (fields : Fields) (name : Bytes) : Bytes :=
  match fields.find? fun field => field.1 = name with
  | some field => field.2
  | none => []

end ExecRelay.Lib.Json
