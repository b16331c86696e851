import CredentialIssuance.Agent.Response
import CredentialIssuance.Proofs.Pair
import CredentialIssuance.Proofs.Steps

namespace CredentialIssuance

-- What surrounds a holder and an issuer, and the connection between them as each of them knows it.
structure Meeting where
  env : Role → Environment
  connection : Role → Connection

structure Couple where
  holder : World
  issuer : World

namespace Couple

def world (couple : Couple) : Role → World
  | .holder => couple.holder
  | .issuer => couple.issuer

def set (couple : Couple) (role : Role) (w : World) : Couple :=
  match role with
  | .holder => { couple with holder := w }
  | .issuer => { couple with issuer := w }

@[simp] theorem world_set (couple : Couple) (role : Role) (w : World) :
    (couple.set role w).world role = w := by
  cases role <;> rfl

@[simp] theorem set_set (couple : Couple) (role : Role) (w w' : World) :
    (couple.set role w).set role w' = couple.set role w' := by
  cases role <;> rfl

end Couple

-- What two agents do together. It ends with the first step that fails.
def Talk (α : Type) : Type := Meeting → Couple → Except Error (α × Couple)

namespace Talk

variable {α β : Type}

protected def pure (a : α) : Talk α := fun _ couple => .ok (a, couple)

protected def bind (x : Talk α) (f : α → Talk β) : Talk β := fun m couple =>
  match x m couple with
  | .ok (a, couple) => f a m couple
  | .error e => .error e

instance : Monad Talk where
  pure := Talk.pure
  bind := Talk.bind

-- One of the two acts.
def act (role : Role) (x : Action α) : Talk α := fun m couple =>
  match x (m.env role) (couple.world role) with
  | (.ok a, after) => .ok (a, couple.set role after)
  | (.error e, _) => .error e

-- A message arrives as it is read from its JSON form.
def arrive (role : Role) (message : Message) : Talk Inbound := fun m couple =>
  match Message.ofJson message.toJson with
  | .ok read => .ok (⟨read, some (m.connection role)⟩, couple)
  | .error e => .error e

def line (role : Role) : Talk String := fun m couple => .ok ((m.connection role).id, couple)

-- A message is taken in as one of the kind, and nothing else.
def deliver (version : Version) (role : Role) (kind : Kind) (message : Message) : Talk Outcome := do
  act role ((Operation.receive kind (← arrive role message)).run version)

-- It is taken in, and then comes the step that its record is ready for.
def turn (version : Version) (role : Role) (kind : Kind) (message : Message)
    (next : Exchange → Operation) : Talk Outcome := do
  let received ← deliver version role kind message
  act role ((next received.record).run version)

-- It is dispatched, and the answer to it is dispatched in turn, until there is no answer or as many
-- messages as are admitted have been dispatched. The answers are given.
def relay : Nat → Role → Message → Talk (List Message)
  | 0, _, _ => pure []
  | admitted + 1, role, message => do
    match ← act role (← arrive role message).dispatch with
    | none => return []
    | some outbound => return outbound.message :: (← relay admitted role.other outbound.message)

end Talk

-- What is left to the applications once an exchange has begun.
structure Choices where
  definition : Option String
  details : OfferDetails
  offerPolicy : Option AutoAccept
  did : Option String
  requestPolicy : Option AutoAccept
  comment : Option String
  issuePolicy : Option AutoAccept

-- From the offer to the end, step by step. The records of the holder and of the issuer are given.
def Talk.issuance (version : Version) (choices : Choices) (offer : Message) :
    Talk (Exchange × Exchange) := do
  let requested ← turn version .holder .offer offer fun e =>
    .request e.id choices.did choices.requestPolicy
  let issued ← turn version .issuer .request requested.message fun e =>
    .issue e.id choices.comment choices.issuePolicy
  let acknowledged ← turn version .holder .issue issued.message fun e => .acknowledge e.id
  let completed ← deliver version .issuer .ack acknowledged.message
  return (acknowledged.record, completed.record)

-- How an exchange begins.
inductive Opening where
  | offer (definition : String) (details : OfferDetails) (policy : Option AutoAccept)
  | connectionless (definition : String) (details : OfferDetails) (policy : Option AutoAccept)
  | proposal (wanted : Proposal) (policy : Option AutoAccept)

namespace Opening

def opener : Opening → Role
  | .offer .. | .connectionless .. => .issuer
  | .proposal .. => .holder

-- The policy that the record of a role is given. What opens an exchange gives one to its own
-- record.
def policy : Opening → Role → Option AutoAccept
  | .offer _ _ policy, .issuer | .connectionless _ _ policy, .issuer | .proposal _ policy, .holder =>
    policy
  | _, _ => none

def thread (opening : Opening) (m : Meeting) (couple : Couple) : String :=
  (m.env opening.opener).threadName (couple.world opening.opener).journal.threads

-- A proposal names the credential definition that it asks for.
def Named : Opening → Prop
  | .offer .. | .connectionless .. => True
  | .proposal wanted _ => wanted.terms.definition.isSome

-- The states that a record goes through. Without a proposal there is one less.
def path : Opening → Role → List State
  | .offer .., role | .connectionless .., role => role.path.tail
  | .proposal .., role => role.path

-- What follows when each message is answered at once.
def answers : Opening → List Kind
  | .offer .. | .connectionless .. => [.request, .issue, .ack]
  | .proposal .. => [.offer, .request, .issue, .ack]

def run (version : Version) : Opening → Talk Outcome
  | .offer definition details policy => do
    let connection ← Talk.line .issuer
    Talk.act .issuer ((Operation.offer (some connection) definition details policy).run version)
  | .connectionless definition details policy =>
    Talk.act .issuer ((Operation.offer none definition details policy).run version)
  | .proposal wanted policy => do
    let connection ← Talk.line .holder
    Talk.act .holder ((Operation.propose connection wanted policy).run version)

-- The offer, which has to be asked for if the exchange begins with a proposal.
def offered (version : Version) (opening : Opening) (choices : Choices) : Talk Message := do
  let opened ← opening.run version
  match opening with
  | .offer .. | .connectionless .. => return opened.message
  | .proposal .. =>
    let answered ← Talk.turn version .issuer .propose opened.message fun e =>
      .answerProposal e.id choices.definition choices.details choices.offerPolicy
    return answered.message

-- The steps of the protocol, one by one.
def steps (version : Version) (opening : Opening) (choices : Choices) :
    Talk (Exchange × Exchange) := do
  Talk.issuance version choices (← opening.offered version choices)

-- The opening, and then dispatch alone.
def dispatched (version : Version) (opening : Opening) (admitted : Nat) : Talk (List Message) := do
  let opened ← opening.run version
  Talk.relay admitted opening.opener.other opened.message

end Opening

-- The talk succeeds, and what it gives and leaves behind is as told.
def Talk.Gives {α : Type} (m : Meeting) (couple : Couple) (x : Talk α) (Q : α → Couple → Prop) : Prop :=
  ∃ a after, x m couple = .ok (a, after) ∧ Q a after

namespace Talk.Gives

variable {α β : Type} {m : Meeting} {couple : Couple} {x : Talk α} {f : α → Talk β}
  {Q : α → Couple → Prop} {R : β → Couple → Prop} {role : Role} {version : Version} {kind : Kind}
  {message : Message}

theorem pure {a : α} (h : Q a couple) : Gives m couple (pure a) Q := ⟨a, couple, rfl, h⟩

theorem bind (hx : Gives m couple x fun a after => Gives m after (f a) R) :
    Gives m couple (x >>= f) R := by
  obtain ⟨a, between, hrun, b, after, hlater, hb⟩ := hx
  refine ⟨b, after, ?_, hb⟩
  show Talk.bind x f m couple = _
  rw [Talk.bind, hrun]
  exact hlater

theorem imp {Q' : α → Couple → Prop} (hx : Gives m couple x Q)
    (h : ∀ a after, Q a after → Q' a after) : Gives m couple x Q' := by
  obtain ⟨a, after, hrun, ha⟩ := hx
  exact ⟨a, after, hrun, h a after ha⟩

theorem line {Q : String → Couple → Prop} (h : Q (m.connection role).id couple) :
    Gives m couple (line role) Q := ⟨_, _, rfl, h⟩

theorem act {x : Action α}
    (h : x.Gives (m.env role) (couple.world role) fun a after => Q a (couple.set role after)) :
    Gives m couple (act role x) Q := by
  obtain ⟨a, after, hrun, ha⟩ := h
  exact ⟨a, couple.set role after, by rw [Talk.act, hrun], ha⟩

theorem arrive {Q : Inbound → Couple → Prop} (plain : message.Plain)
    (h : Q ⟨message, some (m.connection role)⟩ couple) : Gives m couple (arrive role message) Q := by
  refine ⟨_, _, ?_, h⟩
  rw [Talk.arrive, Message.ofJson_toJson plain]

theorem deliver {Q : Outcome → Couple → Prop} (plain : message.Plain)
    (h : ((Operation.receive kind ⟨message, some (m.connection role)⟩).run version).Gives (m.env role)
      (couple.world role) fun o after => Q o (couple.set role after)) :
    Gives m couple (deliver version role kind message) Q :=
  bind (arrive plain (act h))

theorem turn {Q : Outcome → Couple → Prop} {next : Exchange → Operation} (plain : message.Plain)
    (h : ((Operation.receive kind ⟨message, some (m.connection role)⟩).run version).Gives (m.env role)
      (couple.world role) fun received between =>
        ((next received.record).run version).Gives (m.env role) between
          fun o after => Q o (couple.set role after)) :
    Gives m couple (turn version role kind message next) Q := by
  refine bind (deliver plain (h.imp ?_))
  intro received between hnext
  refine act ?_
  simpa using hnext

end Talk.Gives

section Dispatch

variable {env : Environment} {world : World} {m : Message} {connection : Connection}
  {P : Outcome → World → Prop}

open CredentialIssuance.Action

-- A message that calls for no answer.
theorem Inbound.dispatch_silent {Q : Option Outbound → World → Prop}
    (received : Gives env world ((Operation.receive m.kind ⟨m, some connection⟩).run m.version)
      fun o after => followUp? env.config.autoAccept m.kind o.record = none ∧ Q none after) :
    Gives env world (Inbound.dispatch ⟨m, some connection⟩) Q := by
  refine .bind received ?_
  rintro o after ⟨hfollows, hq⟩
  refine ⟨none, after, ?_, hq⟩
  rw [Action.lift_bind_apply]
  simp only [Inquiry.config, hfollows]
  rfl

-- A message that is answered, over the connection it came on.
theorem Inbound.dispatch_answered {Q : Option Outbound → World → Prop}
    (received : Gives env world ((Operation.receive m.kind ⟨m, some connection⟩).run m.version)
      fun o between => ∃ operation,
        followUp? env.config.autoAccept m.kind o.record = some operation ∧
        Gives env between (operation.run m.version)
          fun answer after => Q (some ⟨answer.message, connection⟩) after) :
    Gives env world (Inbound.dispatch ⟨m, some connection⟩) Q := by
  refine .bind received ?_
  rintro o between ⟨operation, hfollows, answer, after, hrun, hq⟩
  refine ⟨_, after, ?_, hq⟩
  rw [Action.lift_bind_apply]
  simp only [Inquiry.config, hfollows]
  rw [Action.bind_apply, hrun]
  rfl

end Dispatch

section Relay

variable {m : Meeting} {couple : Couple} {role : Role} {message : Message} {version : Version}
  {thread : String} {kind : Kind} {admitted : Nat} {Q : List Message → Couple → Prop}

theorem Talk.Gives.silent (sent : message.Sent version thread kind)
    (received : ((Operation.receive kind ⟨message, some (m.connection role)⟩).run version).Gives
      (m.env role) (couple.world role) fun o after =>
        followUp? (m.env role).config.autoAccept kind o.record = none ∧ Q [] (couple.set role after)) :
    Gives m couple (relay (admitted + 1) role message) Q := by
  obtain ⟨hplain, rfl, rfl, -⟩ := sent
  refine bind (arrive hplain (bind (act (Inbound.dispatch_silent (received.imp ?_)))))
  rintro o after ⟨hfollows, hq⟩
  exact ⟨hfollows, .pure hq⟩

theorem Talk.Gives.answered (sent : message.Sent version thread kind)
    (received : ((Operation.receive kind ⟨message, some (m.connection role)⟩).run version).Gives
      (m.env role) (couple.world role) fun o between => ∃ operation,
        followUp? (m.env role).config.autoAccept kind o.record = some operation ∧
        (operation.run version).Gives (m.env role) between fun answer after =>
          Gives m (couple.set role after) (relay admitted role.other answer.message)
            fun answers after => Q (answer.message :: answers) after) :
    Gives m couple (relay (admitted + 1) role message) Q := by
  obtain ⟨hplain, rfl, rfl, -⟩ := sent
  refine bind (arrive hplain (bind (act (Inbound.dispatch_answered (received.imp ?_)))))
  rintro o between ⟨operation, hfollows, hanswer⟩
  refine ⟨operation, hfollows, hanswer.imp fun answer after hrest => ?_⟩
  obtain ⟨answers, final, hrelay, hq⟩ := hrest
  exact bind ⟨answers, final, hrelay, .pure hq⟩

end Relay

end CredentialIssuance
