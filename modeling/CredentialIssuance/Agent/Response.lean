import CredentialIssuance.Agent.Operation

namespace CredentialIssuance

-- The step that answers a processed message without asking. Only a proposal that names a
-- credential definition can be answered so.
def followUp? (default : AutoAccept) (kind : Kind) (record : Exchange) : Option Operation :=
  if record.policy default = .always then
    match kind with
    | .propose =>
      if record.definition.isSome then some (.answerProposal record.id none .blank none) else none
    | .offer => some (.request record.id none none)
    | .request => some (.issue record.id none none)
    | .issue => some (.acknowledge record.id)
    | .ack | .problemReport => none
  else none

-- A response goes back over the connection of the message it answers, or over that of the
-- exchange if the message came without one.
def address (inbound : Inbound) (record : Exchange) : Inquiry Connection := do
  match inbound.connection with
  | some connection => return connection
  | none => Inquiry.call (.connection record.connectionId)

namespace Inbound

-- A message is processed as one of its own kind and family, and then the next step of the protocol
-- follows at once if the policy of the exchange asks for it.
def dispatch (inbound : Inbound) : Action (Option Outbound) := do
  let version := inbound.message.version
  let kind := inbound.message.kind
  let received ← (Operation.receive kind inbound).run version
  let config ← Inquiry.config
  match followUp? config.autoAccept kind received.record with
  | none => return none
  | some operation =>
    let answer ← operation.run version
    let connection ← address inbound answer.record
    return some ⟨answer.message, connection⟩

end Inbound

-- Decodes and dispatches a text.
def dispatchText (text : String) (connection : Option Connection) : Action (Option Outbound) := do
  (← Inbound.decode text connection).dispatch

-- Takes in a text and sends the response, if there is one.
def receiveText (text : String) (connection : Option Connection) : Action (Option Outbound) := do
  match ← dispatchText text connection with
  | none => return none
  | some outbound =>
    Action.send outbound.message outbound.connection
    return some outbound

end CredentialIssuance
