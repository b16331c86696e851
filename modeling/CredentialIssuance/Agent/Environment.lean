import CredentialIssuance.Agent.Stores
import CredentialIssuance.Connection
import CredentialIssuance.Ledger.Cache

namespace CredentialIssuance

-- The issuer's means to issue against one credential definition.
structure IssuerDefinition where
  definition : String
  schema : String
  keyProof : String
  deriving DecidableEq, Repr

-- The registry in which issued credentials can be revoked.
structure RevocationConfig where
  registry : String
  deriving DecidableEq, Repr

structure CredentialRequest where
  request : String
  metadata : String
  deriving DecidableEq, Repr

-- What collaborators are asked. The stores are collaborators too, but what they hold is the agent's
-- own state, so an environment decides only whether they work.
inductive Call where
  | get (id : String)
  | byThread (thread : String)
  | put (record : Exchange)
  | findMessage (exchange type : String)
  | saveMessage (exchange : String) (party : Party) (message : Message)
  | send (message : Message) (connection : Connection)
  | connection (id : String)
  | ledger (artifact : Artifact) (id : String)
  | definition (id : String)
  | revocation (id : String)
  | createOffer (schema definition keyProof : String)
  | createRequest (did definition linkSecret offer : String)
  | createCredential (definition : IssuerDefinition) (offer request : String)
      (claims : List (String × String)) (revocation : Option RevocationConfig)
  | processCredential (credential metadata linkSecret definition : String)
      (registry : Option String)
  | linkSecretId
  | publish (event : Event)
  deriving DecidableEq

-- What a call answers when it does not fail. A look-up by identifier answers whether the store
-- shows what it holds.
@[reducible] def Call.Answer : Call → Type
  | .get _ => Bool
  | .connection _ => Connection
  | .ledger .. => String
  | .definition _ => IssuerDefinition
  | .revocation _ => Option RevocationConfig
  | .createOffer .. => String
  | .createRequest .. => CredentialRequest
  | .createCredential .. => String
  | .processCredential .. => String
  | .linkSecretId => String
  | _ => Unit

-- Every call may be answered differently each time, and may fail at any time. Each member that
-- depends on a number is asked with the number of calls made so far, or of identifiers drawn so
-- far.
structure Environment where
  config : Config
  answer : Nat → (call : Call) → Except String call.Answer
  now : Nat → Timestamp
  -- Nanoseconds of a clock that never goes back.
  clock : Nat → Nat
  threadName : Nat → String
  exchangeName : Nat → String
  messageName : Nat → String

-- What moves on even when an operation fails.
structure Journal where
  calls : List Call
  cache : Cache
  threads : Nat
  exchanges : Nat
  messages : Nat
  deriving DecidableEq

def Journal.empty : Journal := ⟨[], Cache.empty, 0, 0, 0⟩

structure World where
  stores : Stores
  journal : Journal
  deriving DecidableEq

def World.empty : World := ⟨Stores.empty, Journal.empty⟩

end CredentialIssuance
