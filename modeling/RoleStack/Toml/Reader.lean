import RoleStack.Toml.Document
import RoleStack.Toml.Scalar

/-!
Reading a TOML 1.0 document as the JSON value with the same content. Arrays and inline tables nest
at most 79 deep.
-/

namespace RoleStack.Toml

open RoleStack.Reader

/-- All parts of a key but the last, and the last. -/
def splitKey : List String → Option (List String × String)
  | [] => none
  | [key] => some ([], key)
  | part :: rest => (splitKey rest).map fun (path, key) => (part :: path, key)

/-- One `key = value` line or inline member. -/
structure Assignment where
  path : List String
  key : String
  json : Json

def readAssignment (value : Reader Json) : Reader Assignment := fun text => do
  let (parts, rest) ← readKey text
  let (path, key) ← splitKey parts
  let ((), rest) ← literal ['='] rest
  let (json, rest) ← value (skipBlanks rest)
  some (⟨path, key, json⟩, rest)

def readElement (value : Reader Json) : Reader Json := fun text => do
  let (json, rest) ← value (skipLines text)
  some (json, skipLines rest)

/-- The rest of an array after its bracket; a comma may follow the last element. -/
def readArray (value : Reader Json) : Reader Json := fun text =>
  let comma : Reader Unit := fun text => do
    let ((), rest) ← literal [','] text
    match skipLines rest with
    | ']' :: _ => none
    | _ => some ((), rest)
  match skipLines text with
  | ']' :: rest => some (.array [], rest)
  | text => do
      let (elements, rest) ← separatedBy comma (readElement value) text.length text
      let rest := match rest with
        | ',' :: rest => skipLines rest
        | rest => rest
      let ((), rest) ← literal [']'] rest
      some (.array elements, rest)

/-- The rest of an inline table after its brace. It stands on one line. -/
def readInlineTable (value : Reader Json) : Reader Json := fun text =>
  match skipBlanks text with
  | '\x7d' :: rest => some (.object [], rest)
  | text => do
      let member : Reader Assignment := fun text => do
        let (assignment, rest) ← readAssignment value text
        some (assignment, skipBlanks rest)
      let (assignments, rest) ← separatedBy (literal [',']) member text.length text
      let ((), rest) ← literal ['\x7d'] rest
      let members ← assignments.foldlM (m := Option)
        (fun members assignment => assign assignment.path assignment.key assignment.json members) []
      some ((Node.table .header members).toJson, rest)

def readValue : Nat → Reader Json
  | depth, text =>
      match depth, text with
      | depth + 1, '[' :: rest => readArray (readValue depth) rest
      | depth + 1, '\x7b' :: rest => readInlineTable (readValue depth) rest
      | _, text => readScalar text

/-- What has been read of a document: its tables, and the header in force. -/
structure Progress where
  members : Members
  header : List String

def readHeader (progress : Progress) (text : List Char) : Option (Progress × List Char) :=
  match text with
  | '[' :: rest => do
      let (parts, rest) ← readKey rest
      let (path, key) ← splitKey parts
      let ((), rest) ← literal [']', ']'] rest
      let members ← openElement path key progress.members
      some (⟨members, parts⟩, rest)
  | rest => do
      let (parts, rest) ← readKey rest
      let (path, key) ← splitKey parts
      let ((), rest) ← literal [']'] rest
      let members ← openTable path key progress.members
      some (⟨members, parts⟩, rest)

def readLine (progress : Progress) (text : List Char) : Option (Progress × List Char) :=
  match skipBlanks text with
  | '[' :: rest => do
      let (progress, rest) ← readHeader progress rest
      let ((), rest) ← readLineEnd rest
      some (progress, rest)
  | text =>
      match readLineEnd text with
      | some ((), rest) => some (progress, rest)
      | none => do
          let (assignment, rest) ← readAssignment (readValue 79) text
          let ((), rest) ← readLineEnd rest
          let members ← assignUnder progress.header assignment.path assignment.key
            assignment.json progress.members
          some (⟨members, progress.header⟩, rest)

/-- Every line takes at least one character, so as much fuel as there are characters suffices. -/
def readLines (fuel : Nat) (progress : Progress) (text : List Char) : Option Members :=
  match text, fuel with
  | [], _ => some progress.members
  | _, 0 => none
  | text, fuel + 1 => do
      let (progress, rest) ← readLine progress text
      readLines fuel progress rest

def skipByteOrderMark : List Char → List Char
  | '\uFEFF' :: rest => rest
  | text => text

def parse? (text : String) : Option Json := do
  let chars := skipByteOrderMark text.toList
  let members ← readLines chars.length ⟨[], []⟩ chars
  some (Node.table .header members).toJson

end RoleStack.Toml
