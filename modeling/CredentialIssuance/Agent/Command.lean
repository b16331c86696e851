import CredentialIssuance.Agent.Operation

namespace CredentialIssuance

def sendOver (m : Message) (connection : String) : Action Unit := do
  Action.send m (← Inquiry.call (.connection connection))

-- Sends the message of an operation over the connection of its record.
def deliver (version : Version) (operation : Operation) : Action Exchange := do
  let outcome ← operation.run version
  sendOver outcome.message outcome.record.connectionId
  return outcome.record

-- As `deliver`, with the record looked up once more after the operation.
def deliverStored (version : Version) (exchange : String) (operation : Operation) :
    Action Exchange := do
  let outcome ← operation.run version
  let record ← Inquiry.record exchange
  sendOver outcome.message record.connectionId
  return record

-- A command of the application is an operation of its own choice, followed by sending the message
-- of the step to the other party.
inductive Command where
  | propose (connection : String) (proposal : Proposal) (autoAccept : Option AutoAccept)
  | offer (connection : Option String) (definition : String) (details : OfferDetails)
      (autoAccept : Option AutoAccept)
  | answerProposal (exchange : String) (definition : Option String) (details : OfferDetails)
      (autoAccept : Option AutoAccept)
  | acceptOffer (exchange : String) (did : Option String) (autoAccept : Option AutoAccept)
  | declineOffer (exchange : String) (reason : Option String)
  | acceptRequest (exchange : String) (comment : Option String) (autoAccept : Option AutoAccept)
  | acceptCredential (exchange : String)
  deriving DecidableEq

namespace Command

-- An offer can be sent only over a connection.
def run (version : Version) : Command → Action Exchange
  | .propose connection proposal autoAccept =>
    deliver version (.propose connection proposal autoAccept)
  | .offer connection definition details autoAccept =>
    match connection with
    | none => .fail (.invalidMessage .connectionRequired)
    | some connection => deliver version (.offer (some connection) definition details autoAccept)
  | .answerProposal exchange definition details autoAccept =>
    deliver version (.answerProposal exchange definition details autoAccept)
  | .acceptOffer exchange did autoAccept =>
    deliverStored version exchange (.request exchange did autoAccept)
  | .declineOffer exchange reason => deliverStored version exchange (.decline exchange reason)
  | .acceptRequest exchange comment autoAccept =>
    deliverStored version exchange (.issue exchange comment autoAccept)
  | .acceptCredential exchange => deliverStored version exchange (.acknowledge exchange)

end Command

end CredentialIssuance
