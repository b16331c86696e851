import CredentialIssuance.Message.Attachment
import CredentialIssuance.Timestamp

namespace CredentialIssuance

-- Refers to a credential in the wallet.
structure CredentialBinding where
  recordType : String
  recordId : String
  deriving DecidableEq, Repr

-- One agent's view of one issuance.
structure Exchange where
  id : String
  connectionId : String
  threadId : String
  parentThreadId : Option String
  state : State
  role : Role
  version : Version
  -- Overrides the agent's policy.
  autoAccept : Option AutoAccept
  attributes : List Attribute
  definition : Option String
  requestMetadata : Option String
  credentials : List CredentialBinding
  errorMessage : Option String
  createdAt : Timestamp
  updatedAt : Option Timestamp
  deriving DecidableEq

namespace Exchange

-- A new record with nothing but its place in the protocol.
def new (id : String) (role : Role) (version : Version) (state : State)
    (thread connection : String) (now : Timestamp) : Exchange where
  id := id
  connectionId := connection
  threadId := thread
  parentThreadId := none
  state := state
  role := role
  version := version
  autoAccept := none
  attributes := []
  definition := none
  requestMetadata := none
  credentials := []
  errorMessage := none
  createdAt := now
  updatedAt := none

def assertVersion (e : Exchange) (expected : Version) : Except Error Unit :=
  if e.version = expected then .ok () else .error (.versionMismatch e.id e.version expected)

def assertState (e : Exchange) (expected : List State) : Except Error Unit :=
  if e.state ∈ expected then .ok () else .error (.invalidState e.id e.state expected)

def assertRole (e : Exchange) (expected : Role) : Except Error Unit :=
  if e.role = expected then .ok () else .error (.invalidRole e.id e.role expected)

-- A finished exchange accepts nothing.
def assertOpen (e : Exchange) : Except Error Unit :=
  if e.state.isTerminal then .error (.invalidState e.id e.state []) else .ok ()

-- A stored record is moved to states of higher rank only.
def advance (e : Exchange) (next : State) (now : Timestamp) : Except Error Exchange :=
  if e.state.isTerminal ∨ next.rank ≤ e.state.rank then
    .error (.invalidState e.id e.state (State.before next))
  else .ok { e with state := next, updatedAt := some now }

-- The value of each attribute, in order of the names. Of several attributes with one name the
-- last one counts.
def claims (e : Exchange) : List (String × String) :=
  Json.ordered (e.attributes.map fun a => (a.name, a.value))

def policy (e : Exchange) (default : AutoAccept) : AutoAccept := e.autoAccept.getD default

end Exchange

end CredentialIssuance
