import CredentialIssuance.Agent.Action

namespace CredentialIssuance.Issuer

open Inquiry

-- Opens an exchange on the thread of a proposal.
def receiveProposal (version : Version) (inbound : Inbound) : Inquiry Change := do
  let message := inbound.message
  if message.kind ≠ .propose ∨ message.version ≠ version then
    fail (.invalidMessage (.wrongProposal version message.type))
  else
    let connection ← inbound.ready
    let definition ← version.proposedDefinition message
    match ← onThread message.threadId (some .issuer) none with
    | some existing => fail (.invalidMessage (.threadTaken message.threadId existing.id))
    | none =>
      let record ← newRecord .issuer version .proposalReceived message.threadId connection.id
      let record := { record with
        parentThreadId := message.parentThreadId
        attributes := version.attributes message
        definition := definition }
      return .opening record .receiver message

-- The payload of an offer against one of the issuer's credential definitions.
def offerPayload (definition : String) : Inquiry String := do
  let issuer ← call (.definition definition)
  call (.createOffer issuer.schema issuer.definition issuer.keyProof)

-- Opens a thread with an offer. Without a connection the offer can be taken up over any.
def offer (version : Version) (connection : Option String) (definition : String)
    (details : OfferDetails) (autoAccept : Option AutoAccept) : Inquiry Change := do
  let payload ← offerPayload definition
  let config ← config
  let thread ← newThread
  let record ← newRecord .issuer version .offerSent thread (connection.getD config.connectionlessId)
  let record := { record with
    autoAccept := autoAccept
    attributes := details.attributes
    definition := some definition }
  return .opening record .sender (version.offer (.opening thread) payload details)

-- Answers a proposal with an offer. What the answer leaves open is taken from the proposal.
def answerProposal (version : Version) (exchange : String) (definition : Option String)
    (details : OfferDetails) (autoAccept : Option AutoAccept) : Inquiry Change := do
  let record ← lockedRecord exchange
  record.assertVersion version
  record.assertRole .issuer
  record.assertState [.proposalReceived]
  match definition.or record.definition with
  | none => fail (.invalidMessage (.noDefinition record.id))
  | some definition =>
    let payload ← offerPayload definition
    let details := { details with
      attributes := if details.attributes = [] then record.attributes else details.attributes }
    let record := { record with
      attributes := details.attributes
      definition := some definition
      autoAccept := autoAccept.or record.autoAccept }
    let header ← reply record.threadId
    return .moving record .offerSent .sender (version.offer header payload details)

-- A request answers an offer of the issuer's, and binds it to the connection if it had none; or
-- it opens an exchange on a thread that has no issuer's record.
def receiveRequest (version : Version) (inbound : Inbound) : Inquiry Change := do
  let message := inbound.message
  let _ ← version.payload message .request
  let connection ← inbound.ready
  match ← bound message.threadId (some .issuer) (some connection.id) with
  | some record =>
    record.assertVersion version
    record.assertState [.offerSent]
    let record := { record with connectionId := connection.id }
    return .moving record .requestReceived .receiver message
  | none =>
    match ← onThread message.threadId (some .issuer) none with
    | some _ => fail (.invalidMessage (.boundElsewhere message.threadId))
    | none =>
      let record ← newRecord .issuer version .requestReceived message.threadId connection.id
      return .opening record .receiver message

-- Accepts a request.
def issue (version : Version) (exchange : String) (comment : Option String)
    (autoAccept : Option AutoAccept) : Inquiry Change := do
  let record ← lockedRecord exchange
  record.assertVersion version
  record.assertRole .issuer
  record.assertState [.requestReceived]
  let offer ← message record .offer
  let request ← message record .request
  let offerPayload ← version.payload offer .offer
  let requestPayload ← version.payload request .request
  let terms ← OfferPayload.ofText offerPayload
  let definition ← call (.definition terms.definition)
  let revocation ← call (.revocation terms.definition)
  let credential ←
    call (.createCredential definition offerPayload requestPayload record.claims revocation)
  let record := { record with autoAccept := autoAccept.or record.autoAccept }
  let header ← reply record.threadId
  return .moving record .credentialIssued .sender (version.issue header credential comment offer)

-- An acknowledgement of any status completes the exchange.
def receiveAck (version : Version) (inbound : Inbound) : Inquiry Change := do
  let message := inbound.message
  if message.kind ≠ .ack ∨ message.version ≠ version then
    fail (.invalidMessage (.wrongAck version message.type))
  else
    let found ← onThread message.threadId (some .issuer) inbound.connectionId
    let record ← require found (.roleOnThread .issuer message.threadId)
    record.assertVersion version
    record.assertState [.credentialIssued]
    return .moving record .done .receiver message

end CredentialIssuance.Issuer
