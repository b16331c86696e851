import CredentialIssuance.Agent.Response

namespace CredentialIssuance

-- `Transition role party kind previous next`: a record of the role comes into `next` when the
-- party's message of that kind is written. There is no previous state for a new record.
inductive Transition : Role → Party → Kind → Option State → State → Prop where
  | sendProposal : Transition .holder .sender .propose none .proposalSent
  | receiveProposal : Transition .issuer .receiver .propose none .proposalReceived
  | sendOffer : Transition .issuer .sender .offer none .offerSent
  | answerProposal : Transition .issuer .sender .offer (some .proposalReceived) .offerSent
  | receiveOffer : Transition .holder .receiver .offer none .offerReceived
  | receiveAnswer : Transition .holder .receiver .offer (some .proposalSent) .offerReceived
  | sendRequest : Transition .holder .sender .request (some .offerReceived) .requestSent
  | receiveRequest : Transition .issuer .receiver .request (some .offerSent) .requestReceived
  -- The request takes up an offer that the issuer does not know of.
  | openByRequest : Transition .issuer .receiver .request none .requestReceived
  | sendCredential : Transition .issuer .sender .issue (some .requestReceived) .credentialIssued
  | receiveCredential : Transition .holder .receiver .issue (some .requestSent) .credentialReceived
  | sendAck : Transition .holder .sender .ack (some .credentialReceived) .done
  | receiveAck : Transition .issuer .receiver .ack (some .credentialIssued) .done
  | decline : Transition .holder .sender .problemReport (some .offerReceived) .declined
  | receiveReport {role : Role} {state : State} (isOpen : state.isTerminal = false) :
      Transition role .receiver .problemReport (some state) .declined

theorem State.rank_lt_declined {state : State} (isOpen : state.isTerminal = false) :
    state.rank < State.declined.rank := by
  cases state <;> first | decide | cases isOpen

-- Each step leads from a state that is open to one of higher rank.
theorem Transition.rises {role : Role} {party : Party} {kind : Kind} {old new : State}
    (h : Transition role party kind (some old) new) :
    old.isTerminal = false ∧ old.rank < new.rank := by
  cases h with
  | receiveReport isOpen => exact ⟨isOpen, State.rank_lt_declined isOpen⟩
  | _ => decide

namespace Role

-- The states of a record when nothing goes wrong, from the first to the last.
def path : Role → List State
  | .holder => [.proposalSent, .offerReceived, .requestSent, .credentialReceived, .done]
  | .issuer => [.proposalReceived, .offerSent, .requestReceived, .credentialIssued, .done]

-- The states a record can be opened in.
def openings : Role → List State
  | .holder => [.proposalSent, .offerReceived]
  | .issuer => [.proposalReceived, .offerSent, .requestReceived]

-- One step along the path, or the end of an exchange that had not ended.
def Follows (role : Role) (old new : State) : Prop :=
  (old, new) ∈ role.path.zip role.path.tail ∨ old.isTerminal = false ∧ new = .declined

end Role

theorem Transition.mem_openings {role : Role} {party : Party} {kind : Kind} {new : State}
    (h : Transition role party kind none new) : new ∈ role.openings := by
  cases h <;> decide

theorem Transition.follows {role : Role} {party : Party} {kind : Kind} {old new : State}
    (h : Transition role party kind (some old) new) : role.Follows old new := by
  cases h with
  | receiveReport isOpen => exact .inr ⟨isOpen, rfl⟩
  | decline => exact .inr ⟨rfl, rfl⟩
  | _ => exact .inl (by decide)

end CredentialIssuance
