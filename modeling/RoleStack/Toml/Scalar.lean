import RoleStack.Json.Value
import RoleStack.Text.Reader

/-!
The words of TOML 1.0: blanks, comments, strings, keys, numbers and moments. A moment stands for an
object with one member, so it is neither text nor a number.
-/

namespace RoleStack.Toml

open RoleStack.Reader

def isBlank (char : Char) : Bool := char = ' ' || char = '\t'

def skipBlanks (text : List Char) : List Char := text.dropWhile isBlank

/-- Tabs and every character from the blank on, except delete. -/
def isPrintable (char : Char) : Bool :=
  char = '\t' || (32 ≤ char.toNat && char.toNat ≠ 127)

/-- A line ends with a line feed, with or without a carriage return before it. -/
def readNewline : Reader Unit
  | '\n' :: rest => some ((), rest)
  | '\r' :: '\n' :: rest => some ((), rest)
  | _ => none

def skipComment : List Char → List Char
  | '#' :: rest => rest.dropWhile isPrintable
  | text => text

/-- Blanks and a comment up to the end of the line or of the text. -/
def readLineEnd : Reader Unit := fun text =>
  match skipComment (skipBlanks text) with
  | [] => some ((), [])
  | rest => readNewline rest

/-- Blanks, comments and line ends between the elements of an array. -/
def skipLines (text : List Char) : List Char :=
  let blankLine : Reader Unit := fun text => readNewline (skipComment (skipBlanks text))
  skipBlanks (many blankLine text.length text).2

/-- The character that an escape stands for, read after its backslash. -/
def readEscape : Reader Char
  | 'b' :: rest => some ('\x08', rest)
  | 't' :: rest => some ('\t', rest)
  | 'n' :: rest => some ('\n', rest)
  | 'f' :: rest => some ('\x0c', rest)
  | 'r' :: rest => some ('\r', rest)
  | '"' :: rest => some ('"', rest)
  | '\\' :: rest => some ('\\', rest)
  | 'u' :: rest => do
      let (code, rest) ← hexNumber 4 rest
      let char ← charOfCode? code
      some (char, rest)
  | 'U' :: rest => do
      let (code, rest) ← hexNumber 8 rest
      let char ← charOfCode? code
      some (char, rest)
  | _ => none

def readBasicChar : Reader Char
  | '\\' :: rest => readEscape rest
  | '"' :: _ => none
  | char :: rest => if isPrintable char then some (char, rest) else none
  | [] => none

def readLiteralChar : Reader Char
  | '\'' :: _ => none
  | char :: rest => if isPrintable char then some (char, rest) else none
  | [] => none

def closeString (quote : Char) (read : List Char × List Char) : Option (String × List Char) :=
  match read.2 with
  | char :: rest => if char = quote then some (String.ofList read.1, rest) else none
  | [] => none

/-- The rest of a string on one line, after its opening quote. -/
def readBasicString : Reader String := fun text =>
  closeString '"' (many readBasicChar text.length text)

def readLiteralString : Reader String := fun text =>
  closeString '\'' (many readLiteralChar text.length text)

/-- A backslash before the end of a line takes all blanks and line ends that follow. -/
def skipContinuation : List Char → Option (List Char)
  | '\\' :: rest => do
      let ((), rest) ← readNewline (skipBlanks rest)
      let blank : Reader Unit := fun text =>
        match text with
        | char :: rest => if isBlank char then some ((), rest) else readNewline text
        | [] => none
      some (many blank rest.length rest).2
  | _ => none

/-- One or more characters of a string over several lines; up to two quotes may stand inside. -/
def readMultilineChars (quote : Char) (readChar : Reader Char) (continues : Bool) :
    Reader (List Char) := fun text =>
  match if continues then skipContinuation text else none with
  | some rest => some ([], rest)
  | none =>
      match readNewline text with
      | some ((), rest) => some (['\n'], rest)
      | none =>
          let quotes := text.takeWhile (· = quote)
          if quotes.isEmpty then (readChar text).map fun (char, rest) => ([char], rest)
          else if quotes.length < 3 then some (quotes, text.drop quotes.length)
          else none

/-- The rest of a string over several lines; of at most five closing quotes the last three count. -/
def readMultiline (quote : Char) (readChar : Reader Char) (continues : Bool) :
    Reader String := fun text =>
  let text := match readNewline text with
    | some ((), rest) => rest
    | none => text
  let (pieces, rest) := many (readMultilineChars quote readChar continues) text.length text
  let quotes := (rest.takeWhile (· = quote)).length
  if 3 ≤ quotes ∧ quotes ≤ 5 then
    some (String.ofList (pieces.flatten ++ List.replicate (quotes - 3) quote), rest.drop quotes)
  else none

def readString : Reader String
  | '"' :: '"' :: '"' :: rest => readMultiline '"' readBasicChar true rest
  | '"' :: rest => readBasicString rest
  | '\'' :: '\'' :: '\'' :: rest => readMultiline '\'' readLiteralChar false rest
  | '\'' :: rest => readLiteralString rest
  | _ => none

def isBareKeyChar (char : Char) : Bool :=
  char.isAlphanum || char = '-' || char = '_'

def readKeyPart : Reader String := fun text => do
  let (part, rest) ← match skipBlanks text with
    | '"' :: rest => readBasicString rest
    | '\'' :: rest => readLiteralString rest
    | text => (someOf isBareKeyChar text).map fun (chars, rest) => (String.ofList chars, rest)
  some (part, skipBlanks rest)

/-- The parts of a dotted key; at most 79 are allowed. -/
def readKey : Reader (List String) := fun text => do
  let (parts, rest) ← separatedBy (literal ['.']) readKeyPart text.length text
  if parts.length < 80 then some (parts, rest) else none

/-- Digits, where a single underscore may stand between two of them. -/
def readDigits (accepts : Char → Bool) : Reader (List Char) := fun text => do
  let (groups, rest) ← separatedBy (literal ['_']) (someOf accepts) text.length text
  some (groups.flatten, rest)

def readSign : List Char → Bool × List Char
  | '-' :: rest => (true, rest)
  | '+' :: rest => (false, rest)
  | text => (false, text)

/-- The whole part of a decimal number: zero, or digits that do not start with one. -/
def readWhole : Reader (List Char)
  | '0' :: rest => some (['0'], rest)
  | text => readDigits Char.isDigit text

def integerOf (negative : Bool) (magnitude : Nat) : Option Json :=
  let value := if negative then -Int.ofNat magnitude else Int.ofNat magnitude
  if -9223372036854775808 ≤ value ∧ value ≤ 9223372036854775807 then some (.integer value)
  else none

def readBased (base : Nat) (accepts : Char → Bool) : Reader Json := fun text => do
  let (digits, rest) ← readDigits accepts text
  let value ← integerOf false (digitsValue base digits)
  some (value, rest)

def readInteger : Reader Json
  | '0' :: 'x' :: rest => readBased 16 isHexDigit rest
  | '0' :: 'o' :: rest => readBased 8 (fun char => '0' ≤ char && char ≤ '7') rest
  | '0' :: 'b' :: rest => readBased 2 (fun char => char = '0' || char = '1') rest
  | text => do
      let (negative, rest) := readSign text
      let (digits, rest) ← readWhole rest
      let value ← integerOf negative (digitsValue 10 digits)
      some (value, rest)

def readFraction : Reader (List Char)
  | '.' :: rest => readDigits Char.isDigit rest
  | _ => none

def readExponent : Reader Int
  | mark :: rest =>
      if mark = 'e' ∨ mark = 'E' then do
        let (negative, rest) := readSign rest
        let (digits, rest) ← readDigits Char.isDigit rest
        let size := Int.ofNat (digitsValue 10 digits)
        some (if negative then -size else size, rest)
      else none
  | [] => none

def readSpecialFloat : Reader Json := fun text =>
  let (negative, rest) := readSign text
  match rest with
  | 'i' :: 'n' :: 'f' :: rest => some (.real (.infinite negative), rest)
  | 'n' :: 'a' :: 'n' :: rest => some (.real .notANumber, rest)
  | _ => none

/-- A float has a fraction, an exponent or both. A literal too large for a float is refused. -/
def readDecimalFloat : Reader Json := fun text => do
  let (negative, rest) := readSign text
  let (whole, rest) ← readWhole rest
  let (fraction, exponent, rest) ← match readFraction rest with
    | some (fraction, rest) =>
        match readExponent rest with
        | some (exponent, rest) => some (fraction, exponent, rest)
        | none => some (fraction, 0, rest)
    | none => (readExponent rest).map fun (exponent, rest) => ([], exponent, rest)
  let real := Binary64.ofDecimal negative (digitsValue 10 (whole ++ fraction))
    (exponent - Int.ofNat fraction.length)
  if real = .infinite false then none else some (.real real, rest)

def readTwoDigits (least greatest : Nat) : Reader Nat := fun text => do
  let (digits, rest) ← exactly Char.isDigit 2 text
  let value := digitsValue 10 digits
  if least ≤ value ∧ value ≤ greatest then some (value, rest) else none

def isLeapYear (year : Nat) : Bool :=
  year % 4 = 0 && (year % 100 ≠ 0 || year % 400 = 0)

def daysInMonth (year month : Nat) : Nat :=
  if month = 2 then if isLeapYear year then 29 else 28
  else if month = 4 ∨ month = 6 ∨ month = 9 ∨ month = 11 then 30
  else 31

def readDate : Reader Unit := fun text => do
  let (yearDigits, rest) ← exactly Char.isDigit 4 text
  let ((), rest) ← literal ['-'] rest
  let (month, rest) ← readTwoDigits 1 12 rest
  let ((), rest) ← literal ['-'] rest
  let (_, rest) ← readTwoDigits 1 (daysInMonth (digitsValue 10 yearDigits) month) rest
  some ((), rest)

/-- A second may be the sixtieth. -/
def readTime : Reader Unit := fun text => do
  let (_, rest) ← readTwoDigits 0 23 text
  let ((), rest) ← literal [':'] rest
  let (_, rest) ← readTwoDigits 0 59 rest
  let ((), rest) ← literal [':'] rest
  let (_, rest) ← readTwoDigits 0 60 rest
  match rest with
  | '.' :: fraction => do
      let (_, rest) ← someOf Char.isDigit fraction
      some ((), rest)
  | _ => some ((), rest)

def readOffset : Reader Unit
  | 'Z' :: rest => some ((), rest)
  | 'z' :: rest => some ((), rest)
  | sign :: rest =>
      if sign = '+' ∨ sign = '-' then do
        let (_, rest) ← readTwoDigits 0 23 rest
        let ((), rest) ← literal [':'] rest
        let (_, rest) ← readTwoDigits 0 59 rest
        some ((), rest)
      else none
  | [] => none

def readDelimitedTime : Reader Unit
  | mark :: rest =>
      if mark = 'T' ∨ mark = 't' ∨ mark = ' ' then do
        let ((), rest) ← readTime rest
        match readOffset rest with
        | some ((), rest) => some ((), rest)
        | none => some ((), rest)
      else none
  | [] => none

/-- The member that a moment's object holds its text under. -/
def momentMember : String := "moment"

/-- A date with or without a time, or a time alone. -/
def readMoment : Reader Json := fun text => do
  let rest ← match readDate text with
    | some ((), rest) =>
        match readDelimitedTime rest with
        | some ((), rest) => some rest
        | none => some rest
    | none => (readTime text).map Prod.snd
  let taken := String.ofList (text.take (text.length - rest.length))
  some (.object [(momentMember, .string taken)], rest)

def readNumber : Reader Json := fun text =>
  readMoment text <|> readDecimalFloat text <|> readSpecialFloat text <|> readInteger text

/-- A value that is neither an array nor an inline table. -/
def readScalar : Reader Json
  | 't' :: 'r' :: 'u' :: 'e' :: rest => some (.bool true, rest)
  | 'f' :: 'a' :: 'l' :: 's' :: 'e' :: rest => some (.bool false, rest)
  | text =>
      match text.head? with
      | some '"' | some '\'' => (readString text).map fun (value, rest) => (.string value, rest)
      | _ => readNumber text

end RoleStack.Toml
