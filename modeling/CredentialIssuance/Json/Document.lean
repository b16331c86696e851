import CredentialIssuance.Json.Basic

namespace CredentialIssuance

-- A text as it is written, before its meaning is settled: members in order with repetitions, and
-- literals that have the right form but no value. A structure read from a text looks only at the
-- members it knows, so a literal without a value does no harm elsewhere.
inductive Document where
  | null
  | bool (value : Bool)
  -- No value: the number is beyond the floating-point range.
  | num (value : Option Number)
  -- No value: an escape names half of a surrogate pair.
  | str (value : Option String)
  | arr (items : List Document)
  | obj (members : List (Option String × Document))

namespace Document

mutual
-- How many arrays and objects lie within one another.
def depth : Document → Nat
  | .arr items => itemsDepth items + 1
  | .obj members => membersDepth members + 1
  | _ => 0

def itemsDepth : List Document → Nat
  | [] => 0
  | item :: rest => max (depth item) (itemsDepth rest)

def membersDepth : List (Option String × Document) → Nat
  | [] => 0
  | (_, value) :: rest => max (depth value) (membersDepth rest)
end

mutual
-- The value a document stands for, if each of its literals has one. Of repeated members the
-- last one counts.
def json? : Document → Option Json
  | .null => some .null
  | .bool b => some (.bool b)
  | .num n => n.map .num
  | .str s => s.map .str
  | .arr items => (itemsJson? items).map .arr
  | .obj members => (membersJson? members).map Json.object

def itemsJson? : List Document → Option (List Json)
  | [] => some []
  | item :: rest => do
    let value ← json? item
    let values ← itemsJson? rest
    some (value :: values)

def membersJson? : List (Option String × Document) → Option (List (String × Json))
  | [] => some []
  | (name, item) :: rest => do
    let name ← name
    let value ← json? item
    let values ← membersJson? rest
    some ((name, value) :: values)
end

def str? : Document → Option String
  | .str s => s
  | _ => none

-- The members of a structure given as an object, or as an array in the order of `names`. No
-- known member may be repeated. With `defaults` an array may leave out a tail.
def members? (names : List String) (defaults : Bool) :
    Document → Option (List (String × Document))
  | .obj members => do
    let members ← members.mapM fun (name, value) => name.map (·, value)
    if names.all fun name => members.countP (fun member => member.1 = name) ≤ 1 then some members
    else none
  | .arr items =>
    if items.length = names.length ∨ (defaults ∧ items.length < names.length) then
      some (names.zip items)
    else none
  | _ => none

-- A member that must be there.
def required {α : Type} (read : Document → Option α) (members : List (String × Document))
    (name : String) : Option α :=
  (Json.lookup name members).bind read

-- A member that may be missing or null.
def optional {α : Type} (read : Document → Option α) (members : List (String × Document))
    (name : String) : Option (Option α) :=
  match Json.lookup name members with
  | none | some .null => some none
  | some value => (read value).map some

-- A member that may be missing, but not null.
def defaulted {α : Type} (read : Document → Option α) (default : α)
    (members : List (String × Document)) (name : String) : Option α :=
  match Json.lookup name members with
  | none => some default
  | some value => read value

-- A natural number of 64 bits.
def word? : Document → Option Nat
  | .num (some (.int n)) => if 0 ≤ n ∧ n < Nat.pow 2 64 then some n.toNat else none
  | _ => none

-- One of the named choices: its name, or an object with that one name and null.
def choice? {α : Type} (choices : List (String × α)) : Document → Option α
  | .str (some name) => Json.lookup name choices
  | .obj [(some name, .null)] => Json.lookup name choices
  | _ => none

end Document

end CredentialIssuance
