import CredentialIssuance.Agent.Holder
import CredentialIssuance.Agent.Issuer

namespace CredentialIssuance

def defaultReport : String := "problem reported by the other party"

-- A problem report of either side declines the exchange it concerns. Any message is taken for a
-- report.
def receiveReport (version : Version) (inbound : Inbound) : Inquiry Change := do
  let message := inbound.message
  let found ← Inquiry.bound message.threadId none inbound.connectionId
  let record ← Inquiry.require found (.onThread message.threadId)
  record.assertVersion version
  record.assertOpen
  let record := { record with errorMessage := some (message.comment.getD defaultReport) }
  return .moving record .declined .receiver message

inductive Operation where
  | propose (connection : String) (proposal : Proposal) (autoAccept : Option AutoAccept)
  | offer (connection : Option String) (definition : String) (details : OfferDetails)
      (autoAccept : Option AutoAccept)
  | answerProposal (exchange : String) (definition : Option String) (details : OfferDetails)
      (autoAccept : Option AutoAccept)
  | request (exchange : String) (did : Option String) (autoAccept : Option AutoAccept)
  | issue (exchange : String) (comment : Option String) (autoAccept : Option AutoAccept)
  | acknowledge (exchange : String)
  | decline (exchange : String) (reason : Option String)
  -- Takes in a message as one of the given kind.
  | receive (kind : Kind) (inbound : Inbound)
  deriving DecidableEq

-- What a successful operation leaves behind: the message of the step and the record as stored.
structure Outcome where
  message : Message
  record : Exchange
  deriving DecidableEq

namespace Operation

def plan (version : Version) : Operation → Inquiry Change
  | .propose connection proposal autoAccept => Holder.propose version connection proposal autoAccept
  | .offer connection definition details autoAccept =>
    Issuer.offer version connection definition details autoAccept
  | .answerProposal exchange definition details autoAccept =>
    Issuer.answerProposal version exchange definition details autoAccept
  | .request exchange did autoAccept => Holder.request version exchange did autoAccept
  | .issue exchange comment autoAccept => Issuer.issue version exchange comment autoAccept
  | .acknowledge exchange => Holder.acknowledge version exchange
  | .decline exchange reason => Holder.decline version exchange reason
  | .receive .propose inbound => Issuer.receiveProposal version inbound
  | .receive .offer inbound => Holder.receiveOffer version inbound
  | .receive .request inbound => Issuer.receiveRequest version inbound
  | .receive .issue inbound => Holder.receiveCredential version inbound
  | .receive .ack inbound => Issuer.receiveAck version inbound
  | .receive .problemReport inbound => receiveReport version inbound

-- What is planned is carried out by committing it, so an operation that fails while it is planned
-- leaves the stores as they were.
def run (version : Version) (operation : Operation) : Action Outcome := do
  let change ← operation.plan version
  let record ← change.commit
  return ⟨change.message, record⟩

end Operation

end CredentialIssuance
