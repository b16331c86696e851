import CredentialIssuance.Proofs.Transition

namespace CredentialIssuance

-- The holder's state and the issuer's, where either may have no record yet.
inductive Agreed : Option State → Option State → Prop where
  | offered : Agreed none (some .offerSent)
  | proposed : Agreed (some .proposalSent) none
  | proposalArrived : Agreed (some .proposalSent) (some .proposalReceived)
  | proposalAnswered : Agreed (some .proposalSent) (some .offerSent)
  | offerArrived : Agreed (some .offerReceived) (some .offerSent)
  | requested : Agreed (some .requestSent) (some .offerSent)
  | requestArrived : Agreed (some .requestSent) (some .requestReceived)
  | issued : Agreed (some .requestSent) (some .credentialIssued)
  | credentialArrived : Agreed (some .credentialReceived) (some .credentialIssued)
  | acknowledged : Agreed (some .done) (some .credentialIssued)
  | ackArrived : Agreed (some .done) (some .done)
  | declined : Agreed (some .declined) (some .offerSent)
  | reportArrived : Agreed (some .declined) (some .declined)

namespace Role

def other : Role → Role
  | .holder => .issuer
  | .issuer => .holder

theorem other_other (role : Role) : role.other.other = role := by
  cases role <;> rfl

-- As `Agreed`, seen from the end with this role.
def Agrees : Role → Option State → Option State → Prop
  | .holder, own, others => Agreed own others
  | .issuer, own, others => Agreed others own

theorem agrees_other {role : Role} {own others : Option State} :
    role.other.Agrees others own ↔ role.Agrees own others := by
  cases role <;> rfl

end Role

-- The states of a record that has sent a message of the kind.
def Kind.past : Kind → Role → List State
  | .propose, .holder =>
    [.proposalSent, .offerReceived, .requestSent, .credentialReceived, .done, .declined]
  | .offer, .issuer => [.offerSent, .requestReceived, .credentialIssued, .done, .declined]
  | .request, .holder => [.requestSent, .credentialReceived, .done]
  | .issue, .issuer => [.credentialIssued, .done]
  | .ack, .holder => [.done]
  | .problemReport, .holder => [.declined]
  | _, _ => []

namespace Transition

variable {role : Role} {party : Party} {kind : Kind} {previous others : Option State} {next : State}

theorem past_of_sender (h : Transition role .sender kind previous next) :
    next ∈ kind.past role := by
  cases h <;> decide

-- Who opens a record sends a proposal or an offer, and the other end has nothing yet.
theorem agrees_of_opening (h : Transition role .sender kind none next) :
    role.Agrees (some next) none := by
  cases h with
  | sendProposal => exact .proposed
  | sendOffer => exact .offered

-- A message that opens a record has been sent by the other role.
theorem role_of_opening {role' : Role} {state : State}
    (h : Transition role .receiver kind none next) (sent : state ∈ kind.past role') :
    role' = role.other := by
  cases h <;> cases role' <;> first | rfl | cases sent

-- What is received must have been sent by the other end, at the latest in its present state.
def Grounded (role : Role) (party : Party) (kind : Kind) (others : Option State) : Prop :=
  party = .receiver → ∃ state, others = some state ∧ state ∈ kind.past role.other

-- Reports come from holders who decline an offer, so one that arrives finds an issuer who has gone
-- no further.
theorem offerSent_of_report {old : State} (before : role.Agrees (some old) others)
    (isOpen : old.isTerminal = false) (grounded : Grounded role .receiver .problemReport others) :
    role = .issuer ∧ old = .offerSent ∧ others = some .declined := by
  obtain ⟨state, rfl, hsent⟩ := grounded rfl
  cases role with
  | holder => cases hsent
  | issuer =>
    have hdeclined : state = .declined := List.mem_singleton.1 hsent
    subst hdeclined
    cases before with
    | declined => exact ⟨rfl, rfl, rfl⟩
    | reportArrived => cases isOpen

-- Agreement is kept by every step that is grounded in what the other end has sent.
theorem agrees (h : Transition role party kind previous next) (before : role.Agrees previous others)
    (grounded : Grounded role party kind others) : role.Agrees (some next) others := by
  cases h with
  | sendProposal =>
    cases before
    exact .proposalAnswered
  | receiveProposal =>
    cases before
    exact .proposalArrived
  | sendOffer =>
    cases before
    exact .proposalAnswered
  | answerProposal =>
    cases before
    exact .proposalAnswered
  | receiveOffer =>
    cases before
    exact .offerArrived
  | receiveAnswer =>
    obtain ⟨state, rfl, hsent⟩ := grounded rfl
    cases before with
    | proposalArrived => exact absurd hsent (by decide)
    | proposalAnswered => exact .offerArrived
  | sendRequest =>
    cases before
    exact .requested
  | receiveRequest =>
    obtain ⟨state, rfl, hsent⟩ := grounded rfl
    cases before with
    | requested => exact .requestArrived
    | _ => exact absurd hsent (by decide)
  | openByRequest =>
    obtain ⟨state, rfl, hsent⟩ := grounded rfl
    cases before
    exact absurd hsent (by decide)
  | sendCredential =>
    cases before
    exact .issued
  | receiveCredential =>
    obtain ⟨state, rfl, hsent⟩ := grounded rfl
    cases before with
    | issued => exact .credentialArrived
    | _ => exact absurd hsent (by decide)
  | sendAck =>
    cases before
    exact .acknowledged
  | receiveAck =>
    obtain ⟨state, rfl, hsent⟩ := grounded rfl
    cases before with
    | acknowledged => exact .ackArrived
    | _ => exact absurd hsent (by decide)
  | decline =>
    cases before
    exact .declined
  | receiveReport isOpen =>
    obtain ⟨rfl, rfl, rfl⟩ := offerSent_of_report before isOpen grounded
    exact .reportArrived

-- What a record has sent, it has still sent after a grounded step.
theorem past {old : State} {sentKind : Kind} (h : Transition role party kind (some old) next)
    (before : role.Agrees (some old) others) (grounded : Grounded role party kind others)
    (sent : old ∈ sentKind.past role) : next ∈ sentKind.past role := by
  cases h with
  | receiveReport isOpen =>
    obtain ⟨rfl, rfl, rfl⟩ := offerSent_of_report before isOpen grounded
    cases sentKind <;> first | decide | exact absurd sent (by decide)
  | _ => cases sentKind <;> first | decide | exact absurd sent (by decide)

end Transition

end CredentialIssuance
