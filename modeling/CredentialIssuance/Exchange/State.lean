namespace CredentialIssuance

inductive Role where
  | holder
  | issuer
  deriving DecidableEq, Repr

def Role.name : Role → String
  | .holder => "Holder"
  | .issuer => "Issuer"

inductive State where
  | proposalSent
  | proposalReceived
  | offerSent
  | offerReceived
  | requestSent
  | requestReceived
  | credentialIssued
  | credentialReceived
  | done
  | declined
  deriving DecidableEq, Repr

namespace State

def all : List State :=
  [.proposalSent, .proposalReceived, .offerSent, .offerReceived, .requestSent, .requestReceived,
    .credentialIssued, .credentialReceived, .done, .declined]

def initial : State := .proposalSent

-- How far the protocol has come. The two states of rank five are final.
def rank : State → Nat
  | .proposalSent | .proposalReceived => 1
  | .offerSent | .offerReceived => 2
  | .requestSent | .requestReceived => 3
  | .credentialIssued | .credentialReceived => 4
  | .done | .declined => 5

def isTerminal : State → Bool
  | .done | .declined => true
  | _ => false

-- The states from which `next` can be reached.
def before (next : State) : List State :=
  all.filter fun state => !state.isTerminal && state.rank < next.rank

def name : State → String
  | .proposalSent => "ProposalSent"
  | .proposalReceived => "ProposalReceived"
  | .offerSent => "OfferSent"
  | .offerReceived => "OfferReceived"
  | .requestSent => "RequestSent"
  | .requestReceived => "RequestReceived"
  | .credentialIssued => "CredentialIssued"
  | .credentialReceived => "CredentialReceived"
  | .done => "Done"
  | .declined => "Declined"

def wireName : State → String
  | .proposalSent => "proposal-sent"
  | .proposalReceived => "proposal-received"
  | .offerSent => "offer-sent"
  | .offerReceived => "offer-received"
  | .requestSent => "request-sent"
  | .requestReceived => "request-received"
  | .credentialIssued => "credential-issued"
  | .credentialReceived => "credential-received"
  | .done => "done"
  | .declined => "declined"

end State

-- Whether the next step is taken without asking. Approval by content is left to the application.
inductive AutoAccept where
  | never
  | always
  | contentApproved
  deriving DecidableEq, Repr

namespace AutoAccept

def all : List AutoAccept := [.never, .always, .contentApproved]

def name : AutoAccept → String
  | .never => "never"
  | .always => "always"
  | .contentApproved => "contentApproved"

end AutoAccept

end CredentialIssuance
