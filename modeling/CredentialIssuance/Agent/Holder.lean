import CredentialIssuance.Agent.Action

namespace CredentialIssuance.Holder

open Inquiry

-- Opens a thread with a proposal.
def propose (version : Version) (connection : String) (proposal : Proposal)
    (autoAccept : Option AutoAccept) : Inquiry Change := do
  let thread ← newThread
  let record ← newRecord .holder version .proposalSent thread connection
  let record := { record with
    autoAccept := autoAccept
    attributes := proposal.attributes
    definition := proposal.terms.definition }
  return .opening record .sender (version.propose (.opening thread) proposal)

-- An offer answers a proposal of the holder's, or it opens an exchange.
def receiveOffer (version : Version) (inbound : Inbound) : Inquiry Change := do
  let message := inbound.message
  let payload ← version.payload message .offer
  let offer ← OfferPayload.ofText payload
  match ← onThread message.threadId (some .holder) inbound.connectionId with
  | some record =>
    record.assertVersion version
    record.assertState [.proposalSent]
    let record := { record with
      attributes := version.attributes message
      definition := some offer.definition }
    return .moving record .offerReceived .receiver message
  | none =>
    let connection ← inbound.ready
    let record ← newRecord .holder version .offerReceived message.threadId connection.id
    let record := { record with
      parentThreadId := some (message.parentThreadId.getD message.threadId)
      attributes := version.attributes message
      definition := some offer.definition }
    return .opening record .receiver message

-- The DID a request is made for, by default the holder's own on the connection.
def requesterDid (record : Exchange) (did : Option String) : Inquiry String := do
  match did with
  | some did => return did
  | none =>
    let connection ← call (.connection record.connectionId)
    return connection.did

-- Accepts an offer.
def request (version : Version) (exchange : String) (did : Option String)
    (autoAccept : Option AutoAccept) : Inquiry Change := do
  let record ← lockedRecord exchange
  record.assertVersion version
  record.assertRole .holder
  record.assertState [.offerReceived]
  let offer ← message record .offer
  let payload ← version.payload offer .offer
  let terms ← OfferPayload.ofText payload
  let did ← requesterDid record did
  let definition ← ledger .credentialDefinition terms.definition
  let linkSecret ← call .linkSecretId
  let request ← call (.createRequest did definition linkSecret payload)
  let record := { record with
    requestMetadata := some request.metadata
    definition := some terms.definition
    attributes := (version.preview offer).getD record.attributes
    autoAccept := autoAccept.or record.autoAccept }
  let header ← reply record.threadId
  return .moving record .requestSent .sender (version.request header request.request offer)

-- The definition of a credential's revocation registry, if the credential names one.
def registry (id : Option String) : Inquiry (Option String) := do
  match id with
  | some id => return some (← ledger .revocationRegistry id)
  | none => return none

-- Verifies a credential, puts it into the wallet and binds it to the exchange.
def receiveCredential (version : Version) (inbound : Inbound) : Inquiry Change := do
  let message := inbound.message
  let payload ← version.payload message .issue
  let credential ← CredentialPayload.ofText payload
  let found ← onThread message.threadId (some .holder) inbound.connectionId
  let record ← require found (.roleOnThread .holder message.threadId)
  record.assertVersion version
  record.assertState [.requestSent]
  let metadata ← require record.requestMetadata (.requestMetadata record.id)
  let _ ← ledger .schema credential.schema
  let definition ← ledger .credentialDefinition credential.definition
  let registry ← registry credential.registry
  let linkSecret ← call .linkSecretId
  let id ← call (.processCredential payload metadata linkSecret definition registry)
  let record := { record with credentials := record.credentials ++ [⟨"indy", id⟩] }
  return .moving record .credentialReceived .receiver message

-- Acknowledges a stored credential.
def acknowledge (version : Version) (exchange : String) : Inquiry Change := do
  let record ← lockedRecord exchange
  record.assertVersion version
  record.assertRole .holder
  record.assertState [.credentialReceived]
  let header ← reply record.threadId
  return .moving record .done .sender (version.ack header)

def declineCode : String := "issuance-abandoned"

def defaultReason : String := "offer declined"

-- Declines an offer.
def decline (version : Version) (exchange : String) (reason : Option String) : Inquiry Change := do
  let record ← lockedRecord exchange
  record.assertVersion version
  record.assertRole .holder
  record.assertState [.offerReceived]
  let reason := reason.getD defaultReason
  let record := { record with errorMessage := some reason }
  let header ← reply record.threadId
  return .moving record .declined .sender (version.problemReport header declineCode reason)

end CredentialIssuance.Holder
