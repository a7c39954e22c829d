import RoleStack.Json.Value

/-!
How the lines of a TOML document build up its tables. A table is defined once: by a header of its
own, by the header of a table inside it, or by dotted keys; and each key of a table is set once.
-/

namespace RoleStack.Toml

/-- What brought a table into being. -/
inductive Origin where
  /-- A header of its own, or being the document, an inline table or an element of an array. -/
  | header
  /-- The header of a table inside it. A header of its own may still follow. -/
  | nested
  | dotted
deriving DecidableEq

inductive Node where
  | value (json : Json)
  | table (origin : Origin) (members : List (String × Node))
  /-- An array of tables, the last element first. -/
  | series (elements : List (List (String × Node)))

abbrev Members := List (String × Node)

def Members.find? (members : Members) (key : String) : Option Node :=
  members.lookup key

def Members.put (members : Members) (key : String) (node : Node) : Members :=
  match members with
  | [] => [(key, node)]
  | (other, old) :: rest =>
      if other = key then (key, node) :: rest else (other, old) :: Members.put rest key node

/-- Changes the table at the end of a path, where missing tables on the way are created. -/
def descend (dotted : Bool) (change : Origin → Members → Option Members) :
    List String → Origin → Members → Option Members
  | [], origin, members => change origin members
  | key :: path, _, members =>
      match members.find? key with
      | none => do
          let origin := if dotted then Origin.dotted else Origin.nested
          let inner ← descend dotted change path origin []
          some (members.put key (.table origin inner))
      | some (.table origin inner) =>
          if dotted ∧ origin = .header then none
          else do
            let inner ← descend dotted change path origin inner
            some (members.put key (.table origin inner))
      | some (.series (last :: earlier)) => do
          let last ← descend dotted change path .header last
          some (members.put key (.series (last :: earlier)))
      | some (.series []) => none
      | some (.value _) => none

/-- Sets a key of a table. A dotted key may only add to tables that dotted keys created. -/
def assign (path : List String) (key : String) (json : Json) : Members → Option Members :=
  let set : Origin → Members → Option Members := fun origin members =>
    if origin = .dotted ↔ path = [] then none
    else
      match members.find? key with
      | some _ => none
      | none => some (members.put key (.value json))
  descend true set path .header

/-- Opens the table of a header. -/
def openTable (path : List String) (key : String) : Members → Option Members :=
  let opening : Origin → Members → Option Members := fun _ members =>
    match members.find? key with
    | none => some (members.put key (.table .header []))
    | some (.table .nested inner) => some (members.put key (.table .header inner))
    | some _ => none
  descend false opening path .header

/-- Opens the next element of an array of tables. -/
def openElement (path : List String) (key : String) : Members → Option Members :=
  let opening : Origin → Members → Option Members := fun _ members =>
    match members.find? key with
    | none => some (members.put key (.series [[]]))
    | some (.series elements) => some (members.put key (.series ([] :: elements)))
    | some _ => none
  descend false opening path .header

def assignUnder (header path : List String) (key : String) (json : Json) :
    Members → Option Members :=
  descend false (fun _ members => assign path key json members) header .header

mutual

def Node.toJson : Node → Json
  | .value json => json
  | .table _ members => Json.ofMembers (membersToJson members)
  | .series elements => .array (elementsToJson elements).reverse

def membersToJson : List (String × Node) → List (String × Json)
  | [] => []
  | (key, node) :: rest => (key, node.toJson) :: membersToJson rest

def elementsToJson : List (List (String × Node)) → List Json
  | [] => []
  | members :: rest => Json.ofMembers (membersToJson members) :: elementsToJson rest

end

end RoleStack.Toml
