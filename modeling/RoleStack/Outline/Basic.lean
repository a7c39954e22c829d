import RoleStack.Json.Writer

/-!
Outlines of values on one line, for people to read: names, records, lists and maps, with text in
quotes.
-/

namespace RoleStack

inductive Outline where
  | word (text : String)
  | quoted (text : String)
  /-- A name with unnamed parts in parentheses. -/
  | parts (name : String) (items : List Outline)
  /-- A name with named parts in braces. -/
  | record (name : String) (fields : List (String × Outline))
  | list (items : List Outline)
  | map (entries : List (String × Outline))
  /-- A label before another outline. -/
  | labelled (label : String) (body : Outline)

namespace Outline

def escapeChar (char : Char) : List Char :=
  match char with
  | '"' => ['\\', '"']
  | '\\' => ['\\', '\\']
  | '\n' => ['\\', 'n']
  | '\r' => ['\\', 'r']
  | '\t' => ['\\', 't']
  | '\x00' => ['\\', '0']
  | char =>
      if char.toNat < 32 || char.toNat = 127 then
        ['\\', 'u', '\x7b'] ++ Nat.toDigits 16 char.toNat ++ ['\x7d']
      else [char]

def quote (text : String) : String :=
  "\"" ++ String.ofList (text.toList.flatMap escapeChar) ++ "\""

def braces (text : String) : String := "\x7b" ++ text ++ "\x7d"

mutual

def render : Outline → String
  | .word text => text
  | .quoted text => quote text
  | .parts name items => name ++ "(" ++ ", ".intercalate (renderItems items) ++ ")"
  | .record name fields => name ++ " " ++ braces (" " ++ ", ".intercalate (renderFields fields) ++ " ")
  | .list items => "[" ++ ", ".intercalate (renderItems items) ++ "]"
  | .map entries => braces (", ".intercalate (renderEntries entries))
  | .labelled label body => label ++ " " ++ body.render

def renderItems : List Outline → List String
  | [] => []
  | item :: rest => item.render :: renderItems rest

def renderFields : List (String × Outline) → List String
  | [] => []
  | (name, value) :: rest => (name ++ ": " ++ value.render) :: renderFields rest

def renderEntries : List (String × Outline) → List String
  | [] => []
  | (key, value) :: rest => (quote key ++ ": " ++ value.render) :: renderEntries rest

end

def ofBool (value : Bool) : Outline := .word (if value then "true" else "false")

def ofNat (value : Nat) : Outline := .word (toString value)

def ofOption {Value : Type} (outline : Value → Outline) : Option Value → Outline
  | none => .word "None"
  | some value => .parts "Some" [outline value]

end Outline

end RoleStack
