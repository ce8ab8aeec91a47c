import Mathlib.Data.List.Basic
import Mathlib.Data.Rat.Defs
import Mathlib.Algebra.Group.Nat.Defs

/-!
JSON texts: the values, how an encoder writes them and how a decoder reads
them. An encoder is given by the way it writes one character inside a string;
it is one only if the reader gives that character back.

Decoders differ on a surrogate escape that has no partner: some put a
replacement character there, some refuse the text. `lone` says which. Limits on
the nesting depth are left out.
-/

namespace Bis.Json

/-! ### Numbers -/

def isExponentMark (c : Char) : Bool := c == 'e' || c == 'E'

def isNumberChar (c : Char) : Bool :=
  c.isDigit || c == '-' || c == '+' || c == '.' || isExponentMark c

def isDigits (digits : List Char) : Bool := !digits.isEmpty && digits.all Char.isDigit

/-- `0`, or digits that do not start with it. -/
def isInteger (digits : List Char) : Bool :=
  isDigits digits && (digits.length == 1 || digits.head? != some '0')

structure Lexeme where
  negative : Bool
  whole : List Char
  fraction : Option (List Char)
  exponent : Option (Bool × List Char)

def splitExponent (text : List Char) : List Char × Option (Bool × List Char) :=
  let front := text.takeWhile fun c => !isExponentMark c
  match text.dropWhile fun c => !isExponentMark c with
  | [] => (front, none)
  | _ :: '-' :: digits => (front, some (true, digits))
  | _ :: '+' :: digits => (front, some (false, digits))
  | _ :: digits => (front, some (false, digits))

def splitFraction (text : List Char) : List Char × Option (List Char) :=
  let front := text.takeWhile (· != '.')
  match text.dropWhile (· != '.') with
  | [] => (front, none)
  | _ :: digits => (front, some digits)

def splitNumber (text : List Char) : Lexeme :=
  let unsigned := if text.head? = some '-' then text.tail else text
  let (front, exponent) := splitExponent unsigned
  let (whole, fraction) := splitFraction front
  { negative := text.head? = some '-', whole, fraction, exponent }

def isNumber (text : List Char) : Bool :=
  let lexeme := splitNumber text
  text.all isNumberChar && isInteger lexeme.whole && lexeme.fraction.all isDigits &&
    lexeme.exponent.all fun e => isDigits e.2

/-- A number as it is written. -/
abbrev Number := { text : List Char // isNumber text = true }

def Lexeme.toRat (lexeme : Lexeme) : Rat :=
  let fraction := lexeme.fraction.getD []
  let digits : Int := Nat.ofDigitChars 10 (lexeme.whole ++ fraction) 0
  let mantissa : Rat := if lexeme.negative then -digits else digits
  let scaled := mantissa / (10 ^ fraction.length : Nat)
  match lexeme.exponent with
  | none => scaled
  | some (true, e) => scaled / (10 ^ Nat.ofDigitChars 10 e 0 : Nat)
  | some (false, e) => scaled * (10 ^ Nat.ofDigitChars 10 e 0 : Nat)

def Number.toRat (n : Number) : Rat := (splitNumber n.val).toRat

/-- The number as an integer, if it is written as one. -/
def Number.toInt? (n : Number) : Option Int :=
  let lexeme := splitNumber n.val
  if lexeme.fraction = none ∧ lexeme.exponent = none then
    let magnitude : Int := Nat.ofDigitChars 10 lexeme.whole 0
    some (if lexeme.negative then -magnitude else magnitude)
  else none

/-! ### Values -/

inductive Value where
  | null
  | bool (b : Bool)
  | number (n : Number)
  | string (text : String)
  | array (items : List Value)
  | object (members : List (String × Value))

/-! ### Reading -/

def isSpace (c : Char) : Bool := c == ' ' || c == '\t' || c == '\n' || c == '\r'

def skipSpace (text : List Char) : List Char := text.dropWhile isSpace

def hexValue (c : Char) : Option Nat :=
  if c.isDigit then some (c.toNat - 48)
  else if 'a' ≤ c ∧ c ≤ 'f' then some (c.toNat - 87)
  else if 'A' ≤ c ∧ c ≤ 'F' then some (c.toNat - 55)
  else none

def hexUnit (a b c d : Char) : Option Nat := do
  let a ← hexValue a
  let b ← hexValue b
  let c ← hexValue c
  let d ← hexValue d
  some (((a * 16 + b) * 16 + c) * 16 + d)

def shortEscape : Char → Option Char
  | '"' => some '"'
  | '\\' => some '\\'
  | '/' => some '/'
  | 'b' => some '\x08'
  | 'f' => some '\x0c'
  | 'n' => some '\n'
  | 'r' => some '\r'
  | 't' => some '\t'
  | _ => none

def isHigh (unit : Nat) : Bool := 0xd800 ≤ unit && unit < 0xdc00

def isLow (unit : Nat) : Bool := 0xdc00 ≤ unit && unit < 0xe000

/-- A character of a string, or a code unit of UTF-16 that is written as an escape. -/
abbrev Piece := Char ⊕ Nat

/-- The pieces up to the closing quote, and what follows it. -/
def stringPieces : List Char → Option (List Piece × List Char)
  | [] => none
  | '"' :: rest => some ([], rest)
  | '\\' :: 'u' :: a :: b :: c :: d :: rest => do
    let unit ← hexUnit a b c d
    let (pieces, rest) ← stringPieces rest
    some (.inr unit :: pieces, rest)
  | '\\' :: c :: rest => do
    let c ← shortEscape c
    let (pieces, rest) ← stringPieces rest
    some (.inl c :: pieces, rest)
  | c :: rest => do
    if c = '\\' ∨ c.toNat < 0x20 then none
    let (pieces, rest) ← stringPieces rest
    some (.inl c :: pieces, rest)

variable (lone : Option Char)

/-- What stands for a high surrogate whose partner does not follow. -/
def settle (high : Option Nat) (text : Option (List Char)) : Option (List Char) :=
  match high with
  | none => text
  | some _ => lone.bind fun c => text.map (c :: ·)

def joinPieces : Option Nat → List Piece → Option (List Char)
  | high, [] => settle lone high (some [])
  | high, .inl c :: rest => settle lone high ((joinPieces none rest).map (c :: ·))
  | high, .inr unit :: rest =>
    if isHigh unit then settle lone high (joinPieces (some unit) rest)
    else if isLow unit then
      match high with
      | none => lone.bind fun c => (joinPieces none rest).map (c :: ·)
      | some high =>
        (joinPieces none rest).map
          (Char.ofNat (0x10000 + (high - 0xd800) * 0x400 + (unit - 0xdc00)) :: ·)
    else settle lone high ((joinPieces none rest).map (Char.ofNat unit :: ·))

/-- The characters up to the closing quote, and what follows it. -/
def stringBody (text : List Char) : Option (List Char × List Char) := do
  let (pieces, rest) ← stringPieces text
  let characters ← joinPieces lone none pieces
  some (characters, rest)

/-- A character in front of what is read after it. -/
def before (c : Char) (rest : Option (List Char × List Char)) : Option (List Char × List Char) :=
  rest.map fun p => (c :: p.1, p.2)

def numberText (text : List Char) : Option (Value × List Char) :=
  let lexeme := text.takeWhile isNumberChar
  if h : isNumber lexeme = true then some (.number ⟨lexeme, h⟩, text.dropWhile isNumberChar)
  else none

mutual

def value : Nat → List Char → Option (Value × List Char)
  | 0, _ => none
  | fuel + 1, text =>
    match skipSpace text with
    | '"' :: rest =>
      (stringBody lone rest).map fun p => (.string (String.ofList p.1), p.2)
    | '[' :: rest =>
      match skipSpace rest with
      | ']' :: rest => some (.array [], rest)
      | rest => do
        let (item, rest) ← value fuel rest
        let (items, rest) ← moreItems fuel rest
        some (.array (item :: items), rest)
    | '{' :: rest =>
      match skipSpace rest with
      | '}' :: rest => some (.object [], rest)
      | rest => do
        let (member, rest) ← member fuel rest
        let (members, rest) ← moreMembers fuel rest
        some (.object (member :: members), rest)
    | 'n' :: 'u' :: 'l' :: 'l' :: rest => some (.null, rest)
    | 't' :: 'r' :: 'u' :: 'e' :: rest => some (.bool true, rest)
    | 'f' :: 'a' :: 'l' :: 's' :: 'e' :: rest => some (.bool false, rest)
    | text => numberText text

def moreItems : Nat → List Char → Option (List Value × List Char)
  | 0, _ => none
  | fuel + 1, text =>
    match skipSpace text with
    | ']' :: rest => some ([], rest)
    | ',' :: rest => do
      let (item, rest) ← value fuel rest
      let (items, rest) ← moreItems fuel rest
      some (item :: items, rest)
    | _ => none

def member : Nat → List Char → Option ((String × Value) × List Char)
  | 0, _ => none
  | fuel + 1, text =>
    match skipSpace text with
    | '"' :: rest => do
      let (key, rest) ← stringBody lone rest
      match skipSpace rest with
      | ':' :: rest => do
        let (item, rest) ← value fuel rest
        some ((String.ofList key, item), rest)
      | _ => none
    | _ => none

def moreMembers : Nat → List Char → Option (List (String × Value) × List Char)
  | 0, _ => none
  | fuel + 1, text =>
    match skipSpace text with
    | '}' :: rest => some ([], rest)
    | ',' :: rest => do
      let (first, rest) ← member fuel rest
      let (members, rest) ← moreMembers fuel rest
      some (first :: members, rest)
    | _ => none

end

/-- The first value of a text, and what follows it. -/
def readFirst (text : List Char) : Option (Value × List Char) :=
  value lone (text.length + 1) text

/-- A text that is one value. -/
def read (text : List Char) : Option Value :=
  match readFirst lone text with
  | some (v, rest) => if skipSpace rest = [] then some v else none
  | none => none

/-! ### Writing -/

/-- The way an encoder writes a character inside a string. -/
structure Escape where
  write : Char → List Char
  read_write : ∀ lone c rest,
    stringBody lone (write c ++ rest) = before c (stringBody lone rest)

def Escape.quoted (escape : Escape) (text : String) : List Char :=
  '"' :: (text.toList.flatMap escape.write ++ ['"'])

mutual

def render (escape : Escape) : Value → List Char
  | .null => ['n', 'u', 'l', 'l']
  | .bool true => ['t', 'r', 'u', 'e']
  | .bool false => ['f', 'a', 'l', 's', 'e']
  | .number n => n.val
  | .string text => escape.quoted text
  | .array [] => ['[', ']']
  | .array (item :: items) => '[' :: (render escape item ++ renderItems escape items)
  | .object [] => ['{', '}']
  | .object ((key, item) :: members) =>
    '{' :: (escape.quoted key ++ ':' :: (render escape item ++ renderMembers escape members))

def renderItems (escape : Escape) : List Value → List Char
  | [] => [']']
  | item :: items => ',' :: (render escape item ++ renderItems escape items)

def renderMembers (escape : Escape) : List (String × Value) → List Char
  | [] => ['}']
  | (key, item) :: members =>
    ',' :: (escape.quoted key ++ ':' :: (render escape item ++ renderMembers escape members))

end

end Bis.Json
