import RoleStack.Json.Value
import RoleStack.Number.Decimal
import RoleStack.Text.Reader

/-!
Reading JSON text. Of two members of one name the later counts, and values nest at most 128 deep.
-/

namespace RoleStack.Json

open RoleStack.Reader

def isBlank (char : Char) : Bool :=
  char = ' ' || char = '\t' || char = '\n' || char = '\r'

def skipBlanks (text : List Char) : List Char := text.dropWhile isBlank

/-- A low surrogate must follow a high one, and a high one must be followed. -/
def readEscapedCode : Reader Char := fun text => do
  let (code, rest) ← hexNumber 4 text
  if 0xD800 ≤ code ∧ code < 0xDC00 then
    let ((), rest) ← literal ['\\', 'u'] rest
    let (low, rest) ← hexNumber 4 rest
    if 0xDC00 ≤ low ∧ low < 0xE000 then
      let char ← charOfCode? (0x10000 + (code - 0xD800) * 0x400 + (low - 0xDC00))
      some (char, rest)
    else none
  else do
    let char ← charOfCode? code
    some (char, rest)

def readStringChar : Reader Char
  | '\\' :: 'u' :: rest => readEscapedCode rest
  | '\\' :: char :: rest =>
      match char with
      | '"' => some ('"', rest)
      | '\\' => some ('\\', rest)
      | '/' => some ('/', rest)
      | 'b' => some ('\x08', rest)
      | 'f' => some ('\x0c', rest)
      | 'n' => some ('\n', rest)
      | 'r' => some ('\r', rest)
      | 't' => some ('\t', rest)
      | _ => none
  | '\\' :: [] => none
  | '"' :: _ => none
  | char :: rest => if char.toNat < 32 then none else some (char, rest)
  | [] => none

/-- The rest of a string after its opening quote. -/
def readString : Reader String := fun text =>
  let (chars, rest) := many readStringChar text.length text
  match rest with
  | '"' :: rest => some (String.ofList chars, rest)
  | _ => none

def readWhole : Reader (List Char)
  | '0' :: rest => some (['0'], rest)
  | text => someOf Char.isDigit text

def readFraction : List Char → Option (List Char × List Char)
  | '.' :: rest => someOf Char.isDigit rest
  | text => some ([], text)

def readSign : List Char → Bool × List Char
  | '-' :: rest => (true, rest)
  | '+' :: rest => (false, rest)
  | text => (false, text)

def readExponent : List Char → Option (Option Int × List Char)
  | mark :: rest =>
      if mark = 'e' ∨ mark = 'E' then do
        let (negative, rest) := readSign rest
        let (digits, rest) ← someOf Char.isDigit rest
        let size := Int.ofNat (digitsValue 10 digits)
        some (some (if negative then -size else size), rest)
      else some (none, mark :: rest)
  | [] => some (none, [])

/-- A literal without point and exponent that a word holds is a whole number, all else a float. -/
def numberOf (negative : Bool) (whole fraction : List Char) (exponent : Option Int) :
    Option Json :=
  let value := Int.ofNat (digitsValue 10 whole)
  let signed := if negative then -value else value
  if fraction.isEmpty ∧ exponent.isNone ∧ isWord signed ∧ ¬(negative ∧ value = 0) then
    some (.integer signed)
  else
    let real := Binary64.ofDigits negative whole fraction (exponent.getD 0)
    if real.isFinite then some (.real real) else none

def readNumber : Reader Json := fun text => do
  let (negative, rest) := match text with
    | '-' :: rest => (true, rest)
    | text => (false, text)
  let (whole, rest) ← readWhole rest
  let (fraction, rest) ← readFraction rest
  let (exponent, rest) ← readExponent rest
  let number ← numberOf negative whole fraction exponent
  some (number, rest)

def readComma : Reader Unit := fun text => literal [','] (skipBlanks text)

def readMember (value : Reader Json) : Reader (String × Json) := fun text =>
  match skipBlanks text with
  | '"' :: rest => do
      let (name, rest) ← readString rest
      let ((), rest) ← literal [':'] (skipBlanks rest)
      let (json, rest) ← value rest
      some ((name, json), rest)
  | _ => none

def readValue : Nat → Reader Json
  | depth, text =>
      match skipBlanks text with
      | 'n' :: 'u' :: 'l' :: 'l' :: rest => some (.null, rest)
      | 't' :: 'r' :: 'u' :: 'e' :: rest => some (.bool true, rest)
      | 'f' :: 'a' :: 'l' :: 's' :: 'e' :: rest => some (.bool false, rest)
      | '"' :: rest => (readString rest).map fun (value, rest) => (.string value, rest)
      | '[' :: rest =>
          match depth, skipBlanks rest with
          | 0, _ => none
          | _ + 1, ']' :: rest => some (.array [], rest)
          | depth + 1, rest => do
              let (elements, rest) ← separatedBy readComma (readValue depth) rest.length rest
              let ((), rest) ← literal [']'] (skipBlanks rest)
              some (.array elements, rest)
      | '\x7b' :: rest =>
          match depth, skipBlanks rest with
          | 0, _ => none
          | _ + 1, '\x7d' :: rest => some (.object [], rest)
          | depth + 1, rest => do
              let (members, rest) ←
                separatedBy readComma (readMember (readValue depth)) rest.length rest
              let ((), rest) ← literal ['\x7d'] (skipBlanks rest)
              some (ofMembers members, rest)
      | text => readNumber text

def parse? (text : String) : Option Json := do
  let (value, rest) ← readValue 128 text.toList
  if (skipBlanks rest).isEmpty then some value else none

end RoleStack.Json
