import CredentialIssuance.Json.Basic

namespace CredentialIssuance.Json

-- A structure is given as an object, where members without a meaning are ignored, or as an array of
-- all its members in the order of their declaration.
def members? (names : List String) : Json → Option (List (String × Json))
  | .obj members => some members
  | .arr items => if items.length = names.length then some (names.zip items) else none
  | _ => none

-- A member that must be there.
def required {α : Type} (read : Json → Option α) (members : List (String × Json))
    (name : String) : Option α :=
  (lookup name members).bind read

-- A member that may be missing or null.
def optional {α : Type} (read : Json → Option α) (members : List (String × Json))
    (name : String) : Option (Option α) :=
  match lookup name members with
  | none | some .null => some none
  | some value => (read value).map some

-- A member that may be missing, but not null.
def defaulted {α : Type} (read : Json → Option α) (default : α)
    (members : List (String × Json)) (name : String) : Option α :=
  match lookup name members with
  | none => some default
  | some value => read value

def list? {α : Type} (read : Json → Option α) : Json → Option (List α)
  | .arr items => items.mapM read
  | _ => none

-- A natural number of 64 bits.
def word? : Json → Option Nat
  | .num (.int n) => if 0 ≤ n ∧ n < Nat.pow 2 64 then some n.toNat else none
  | _ => none

-- One of the named choices: its name, or an object with that one name and null.
def choice? {α : Type} (choices : List (String × α)) : Json → Option α
  | .str name => lookup name choices
  | .obj [(name, .null)] => lookup name choices
  | _ => none

-- The name of a choice in such a list.
def nameOf {α : Type} [DecidableEq α] (choices : List (String × α)) (choice : α) : String :=
  ((choices.find? fun entry => entry.2 = choice).map (·.1)).getD ""

def ofList {α : Type} (write : α → Json) (items : List α) : Json := .arr (items.map write)

end CredentialIssuance.Json
