import CredentialIssuance.Message.Wire

namespace CredentialIssuance

inductive ConnectionState where
  | invited
  | requested
  | responded
  | complete
  deriving DecidableEq, Repr

structure Connection where
  id : String
  did : String
  theirDid : String
  state : ConnectionState
  deriving DecidableEq, Repr

namespace ConnectionState

def initial : ConnectionState := .invited

def names : List (String × ConnectionState) :=
  [("invited", .invited), ("requested", .requested), ("responded", .responded),
    ("complete", .complete)]

def toJson (s : ConnectionState) : Json := .str (Json.nameOf names s)

end ConnectionState

namespace Connection

def isReady (c : Connection) : Bool := c.state = .complete

def toJson (c : Connection) : Json :=
  .object [("id", .str c.id), ("did", .str c.did), ("their_did", .str c.theirDid),
    ("state", c.state.toJson)]

def ofJson? (j : Json) : Option Connection := do
  let ms ← j.members? ["id", "did", "their_did", "state"]
  return {
    id := ← Json.required Json.str? ms "id"
    did := ← Json.required Json.str? ms "did"
    theirDid := ← Json.required Json.str? ms "their_did"
    state := ← Json.required (Json.choice? ConnectionState.names) ms "state" }

end Connection

structure Inbound where
  message : Message
  connection : Option Connection
  deriving DecidableEq

-- A message and the connection to send it over.
structure Outbound where
  message : Message
  connection : Connection
  deriving DecidableEq

namespace Inbound

def decode (text : String) (connection : Option Connection) : Except Error Inbound := do
  return ⟨← Message.decode text, connection⟩

def connectionId (i : Inbound) : Option String := i.connection.map Connection.id

-- The connection, which must be there and complete.
def ready (i : Inbound) : Except Error Connection :=
  match i.connection with
  | none => .error (.invalidMessage (.noConnection i.message.type))
  | some c => if c.isReady then .ok c else .error (.invalidMessage (.connectionNotComplete c.id))

end Inbound

end CredentialIssuance
