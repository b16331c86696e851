import CredentialIssuance.Protocol
import CredentialIssuance.Exchange.State

namespace CredentialIssuance

-- What a required lookup did not find.
inductive Missing where
  | exchange (id : String)
  | onThread (thread : String)
  | roleOnThread (role : Role) (thread : String)
  | message (kind : Kind) (exchange : String)
  | requestMetadata (exchange : String)
  deriving DecidableEq, Repr

-- What is wrong with a message, a payload or the circumstances in which it arrived.
inductive Fault where
  | notJson
  | noType
  | malformed (type : String)
  | notBase64
  | notUtf8
  | malformedOffer
  | malformedCredential
  | filterNotJson
  | configuration
  | noData (attachment : String)
  | wrongMessage (version : Version) (kind : Kind) (found : String)
  | wrongProposal (version : Version) (found : String)
  | wrongAck (version : Version) (found : String)
  | noConnection (type : String)
  | connectionNotComplete (connection : String)
  | connectionRequired
  | ambiguousThread (thread : String)
  | threadTaken (thread : String) (exchange : String)
  | boundElsewhere (thread : String)
  | noDefinition (exchange : String)
  deriving DecidableEq, Repr

-- Why an operation fails. The wording is that of `Error.message`.
inductive Error where
  | invalidState (exchange : String) (current : State) (expected : List State)
  | invalidRole (exchange : String) (current expected : Role)
  | versionMismatch (exchange : String) (current expected : Version)
  | attachmentMissing (id : String)
  | formatMissing (id : String)
  | notFound (what : Missing)
  | unroutable (type : String)
  | invalidMessage (fault : Fault)
  -- The text of a collaborator that failed.
  | external (text : String)
  deriving DecidableEq, Repr

namespace Missing

def text : Missing → String
  | .exchange id => "exchange " ++ id
  | .onThread thread => "exchange on thread " ++ thread
  | .roleOnThread .holder thread => "holder exchange on thread " ++ thread
  | .roleOnThread .issuer thread => "issuer exchange on thread " ++ thread
  | .message kind id => kind.name ++ " message for exchange " ++ id
  | .requestMetadata id => "request metadata for exchange " ++ id

end Missing

namespace Fault

def text : Fault → String
  | .notJson => "message is not JSON"
  | .noType => "message has no @type"
  | .malformed type => "malformed " ++ type ++ " message"
  | .notBase64 => "attachment is not base64"
  | .notUtf8 => "attachment is not UTF-8"
  | .malformedOffer => "malformed offer payload"
  | .malformedCredential => "malformed credential payload"
  | .filterNotJson => "proposal filter is not JSON"
  | .configuration => "invalid configuration"
  | .noData attachment => "attachment " ++ attachment ++ " carries no data"
  | .wrongMessage version kind found =>
    "expected " ++ version.name ++ " " ++ kind.name ++ " message, found " ++ found
  | .wrongProposal version found => "expected " ++ version.name ++ " proposal, found " ++ found
  | .wrongAck version found => "expected " ++ version.name ++ " ack, found " ++ found
  | .noConnection type => type ++ " arrived without a connection"
  | .connectionNotComplete connection => "connection " ++ connection ++ " is not complete"
  | .connectionRequired => "a connection is required to send an offer"
  | .ambiguousThread thread => "more than one exchange on thread " ++ thread
  | .threadTaken thread exchange => "thread " ++ thread ++ " already has exchange " ++ exchange
  | .boundElsewhere thread => "exchange on thread " ++ thread ++ " is bound to another connection"
  | .noDefinition exchange => "no credential definition for exchange " ++ exchange

end Fault

namespace Error

def message : Error → String
  | .invalidState exchange current expected =>
    "exchange " ++ exchange ++ " is in state " ++ current.name ++ ", expected one of [" ++
      ", ".intercalate (expected.map State.name) ++ "]"
  | .invalidRole exchange current expected =>
    "exchange " ++ exchange ++ " has role " ++ current.name ++ ", expected " ++ expected.name
  | .versionMismatch exchange current expected =>
    "exchange " ++ exchange ++ " uses protocol " ++ current.name ++ ", expected " ++ expected.name
  | .attachmentMissing id => "attachment missing: no attachment with id " ++ id
  | .formatMissing id => "format missing: no format advertised for attachment " ++ id
  | .notFound what => "not found: " ++ what.text
  | .unroutable type => "unroutable message: " ++ type
  | .invalidMessage fault => "invalid message: " ++ fault.text
  | .external text => text

-- The name of the kind of error.
def kind : Error → String
  | .invalidState .. => "InvalidState"
  | .invalidRole .. => "InvalidRole"
  | .versionMismatch .. => "ProtocolVersionMismatch"
  | .attachmentMissing _ => "AttachmentMissing"
  | .formatMissing _ => "FormatMissing"
  | .notFound _ => "NotFound"
  | .unroutable _ => "UnroutableMessage"
  | .invalidMessage _ => "InvalidMessage"
  | .external _ => "External"

-- Whether the error reports the state, role or family of a record.
def isPrecondition : Error → Bool
  | .invalidState .. | .invalidRole .. | .versionMismatch .. => true
  | _ => false

end Error

end CredentialIssuance
