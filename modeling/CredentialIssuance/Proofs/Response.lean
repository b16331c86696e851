import CredentialIssuance.Proofs.Backing

namespace CredentialIssuance

-- What comes after the message has been processed.
def Inbound.respond (inbound : Inbound) (received : Outcome) : Action (Option Outbound) := do
  let config ← Inquiry.config
  match followUp? config.autoAccept inbound.message.kind received.record with
  | none => return none
  | some operation =>
    let answer ← operation.run inbound.message.version
    let connection ← address inbound answer.record
    return some ⟨answer.message, connection⟩

theorem Inbound.dispatch_eq (inbound : Inbound) :
    inbound.dispatch = ((Operation.receive inbound.message.kind inbound).run
      inbound.message.version >>= inbound.respond) := rfl

-- `e.Prompts kind operation next`: the operation answers a message of the kind that has been
-- processed for the record, by a message of the next kind. A proposal has to name a credential
-- definition.
inductive Exchange.Prompts (e : Exchange) : Kind → Operation → Kind → Prop where
  | offer (names : e.definition.isSome = true) :
      e.Prompts .propose (.answerProposal e.id none .blank none) .offer
  | request : e.Prompts .offer (.request e.id none none) .request
  | credential : e.Prompts .request (.issue e.id none none) .issue
  | ack : e.Prompts .issue (.acknowledge e.id) .ack

-- The response to a message that has been processed for the record, as it is stored.
structure Outcome.Responds (answer : Outcome) (e : Exchange) (version : Version) (kind : Kind)
    (s : Stores) : Prop where
  stored : s.messages.get? (e.id, typeUri version kind) =
    some ⟨e.id, typeUri version kind, some .sender, answer.message.toJson⟩
  kind : answer.message.kind = kind
  version : answer.message.version = version
  thread : answer.message.threadId = e.threadId
  record : answer.record.id = e.id

-- A second step that is given up leaves behind all that the first one has done. It may have saved
-- its own message.
structure World.Keeps (between after : World) (id type : String) : Prop where
  records : after.stores.records = between.stores.records
  events : after.stores.events = between.stores.events
  messages : ∀ key, key ≠ (id, type) →
    after.stores.messages.get? key = between.stores.messages.get? key

section Prompts

variable {e : Exchange} {kind next : Kind} {operation : Operation}

theorem Exchange.Prompts.sends (h : e.Prompts kind operation next) :
    operation.party = .sender ∧ operation.exchange? = some e.id ∧ operation.kind = next := by
  cases h <;> exact ⟨rfl, rfl, rfl⟩

theorem followUp?_eq_some_iff {default : AutoAccept} :
    followUp? default kind e = some operation ↔
      e.autoAccept.getD default = .always ∧ ∃ next, e.Prompts kind operation next := by
  unfold followUp? Exchange.policy
  by_cases always : e.autoAccept.getD default = .always
  · simp only [always, if_true, true_and]
    constructor
    · intro follows
      cases kind with
      | propose =>
        by_cases names : e.definition.isSome = true
        · simp only [names, if_true, Option.some.injEq] at follows
          exact follows ▸ ⟨_, .offer names⟩
        · simp [names] at follows
      | offer =>
        cases follows
        exact ⟨_, .request⟩
      | request =>
        cases follows
        exact ⟨_, .credential⟩
      | issue =>
        cases follows
        exact ⟨_, .ack⟩
      | ack | problemReport => cases follows
    · rintro ⟨next, prompts⟩
      cases prompts with
      | offer names => simp [names]
      | _ => rfl
  · simp [always]

end Prompts

namespace Operation

variable {env : Environment} {before after : World} {version : Version} {operation : Operation}
  {outcome : Outcome} {id : String} {x : Error}

-- A message that an agent sends is of its family.
theorem run_version (own : operation.party = .sender)
    (h : operation.run version env before = (.ok outcome, after)) :
    outcome.message.version = version := by
  obtain ⟨c, journal, hplan, hmessage, -, -⟩ := run_planned h
  have hbelongs := plan_belongs (.of_sends own) hplan
  rw [hmessage, hbelongs.version]
  exact (plan_ok hplan).version

-- What an operation on a stored record leaves behind when it fails.
theorem run_error_keeps (own : operation.party = .sender) (named : operation.exchange? = some id)
    (h : operation.run version env before = (.error x, after)) :
    before.Keeps after id (typeUri version operation.kind) := by
  have hunwritten := run_error h
  refine ⟨hunwritten.records, hunwritten.events, ?_⟩
  intro key hkey
  have hspares : (operation.run version env before).2.stores.messages.get? key =
      before.stores.messages.get? key := by
    refine run_spares fun c journal hplan hsame => hkey ?_
    have hid := (plan_named named hplan).1
    have hplanned := plan_ok hplan
    have hversion : c.message.version = version :=
      (plan_belongs (.of_sends own) hplan).version.trans hplanned.version
    have hkind : c.message.kind = operation.kind := hplanned.carries.kind own
    rw [← hsame, ← hid, ← hversion, ← hkind]
    rfl
  rw [h] at hspares
  exact hspares

end Operation

theorem Outcome.Responds.of_run {env : Environment} {before after : World} {version : Version}
    {operation : Operation} {answer : Outcome} {e : Exchange} {kind next : Kind}
    (prompts : e.Prompts kind operation next) (stored : before.stores.record? e.id = some e)
    (h : operation.run version env before = (.ok answer, after)) :
    answer.Responds e version next after.stores := by
  obtain ⟨own, named, rfl⟩ := prompts.sends
  have hversion := Operation.run_version own h
  obtain ⟨hid, state, hstep⟩ := Operation.run_named named h
  have hkind := hstep.carries.kind own
  have hthread : answer.record.threadId = e.threadId := by
    obtain ⟨old, hold, hsame, -⟩ := hstep.moves state rfl
    rw [hid, stored] at hold
    cases hold
    exact hsame.threadId
  refine ⟨?_, hkind, hversion, hstep.thread.trans hthread, hid⟩
  have hsaved : StoredMessage.mk answer.record.id answer.message.type (some operation.party)
      answer.message.toJson =
        ⟨e.id, typeUri version operation.kind, some .sender, answer.message.toJson⟩ := by
    rw [hid, own, Message.type, hversion, hkind]
  rw [hstep.messages, hsaved, Table.get?_put]
  exact if_pos rfl

namespace Inbound

variable {env : Environment} {world between after : World} {inbound : Inbound} {received : Outcome}

section Equations

-- What a dispatch comes to, by how the message is processed.

variable (inbound)

theorem dispatch_of_error {x : Error}
    (h : (Operation.receive inbound.message.kind inbound).run inbound.message.version env world =
      (.error x, after)) : inbound.dispatch env world = (.error x, after) := by
  rw [dispatch_eq, Action.bind_apply, h]

theorem dispatch_of_ok
    (h : (Operation.receive inbound.message.kind inbound).run inbound.message.version env world =
      (.ok received, between)) : inbound.dispatch env world = inbound.respond received env between := by
  rw [dispatch_eq, Action.bind_apply, h]

theorem respond_of_none
    (follows : followUp? env.config.autoAccept inbound.message.kind received.record = none) :
    inbound.respond received env between = (.ok none, between) := by
  unfold respond
  rw [Action.lift_bind_apply]
  simp only [Inquiry.config, follows, Action.pure_apply]

theorem respond_of_some {operation : Operation}
    (follows : followUp? env.config.autoAccept inbound.message.kind received.record =
      some operation) :
    inbound.respond received env between =
      (operation.run inbound.message.version >>= fun answer => do
        let connection ← address inbound answer.record
        return some ⟨answer.message, connection⟩ : Action (Option Outbound)) env between := by
  unfold respond
  rw [Action.lift_bind_apply]
  simp only [Inquiry.config, follows]

end Equations

-- The response of a step that has been taken, once it is known where it goes.
theorem address_bind (inbound : Inbound) (answer : Outcome) (env : Environment) (after : World) :
    (do
      let connection ← address inbound answer.record
      return some ⟨answer.message, connection⟩ : Action (Option Outbound)) env after =
      match inbound.connection with
      | some connection => (.ok (some ⟨answer.message, connection⟩), after)
      | none =>
        let lookup := Call.connection answer.record.connectionId
        let addressed : World := ⟨after.stores, after.journal.asked lookup⟩
        match env.answer after.journal.calls.length lookup with
        | .ok connection => (.ok (some ⟨answer.message, connection⟩), addressed)
        | .error text => (.error (.external text), addressed) := by
  rw [Action.lift_bind_apply]
  unfold address
  cases inbound.connection with
  | some connection => rfl
  | none =>
    simp only [Inquiry.call]
    cases env.answer after.journal.calls.length (.connection answer.record.connectionId) <;> rfl

-- Whatever the message, the stores and the policy are, and whatever fails.
theorem dispatch_responds (env : Environment) (world : World) (inbound : Inbound) :
    let version := inbound.message.version
    let kind := inbound.message.kind
    match (Operation.receive kind inbound).run version env world with
    | (.error x, after) =>
      inbound.dispatch env world = (.error x, after) ∧
        after.stores.records = world.stores.records ∧ after.stores.events = world.stores.events
    | (.ok ⟨_, e⟩, between) =>
      let always := e.autoAccept.getD env.config.autoAccept = .always
      (¬ (always ∧ ∃ operation next, e.Prompts kind operation next) →
        inbound.dispatch env world = (.ok none, between)) ∧
      ∀ operation next, always → e.Prompts kind operation next →
        match operation.run version env between with
        | (.error x, after) =>
          inbound.dispatch env world = (.error x, after) ∧
            between.Keeps after e.id (typeUri version next)
        | (.ok answer, after) =>
          answer.Responds e version next after.stores ∧
            inbound.dispatch env world =
              match inbound.connection with
              | some connection => (.ok (some ⟨answer.message, connection⟩), after)
              | none =>
                let lookup := Call.connection answer.record.connectionId
                let addressed : World := ⟨after.stores, after.journal.asked lookup⟩
                match env.answer after.journal.calls.length lookup with
                | .ok connection => (.ok (some ⟨answer.message, connection⟩), addressed)
                | .error text => (.error (.external text), addressed) := by
  intro version kind
  split
  · next x after hreceive =>
    have hunwritten := Operation.run_error hreceive
    exact ⟨dispatch_of_error inbound hreceive, hunwritten.records, hunwritten.events⟩
  · next m e between hreceive =>
    intro always
    have hdispatch := dispatch_of_ok inbound hreceive
    have hstored : between.stores.record? e.id = some e := by
      obtain ⟨previous, hstep⟩ := Operation.run_ok hreceive
      exact (hstep.record? e.id).trans (if_pos rfl)
    constructor
    · intro declined
      have hnone : followUp? env.config.autoAccept kind e = none := by
        rw [Option.eq_none_iff_forall_ne_some]
        intro operation follows
        obtain ⟨halways, next, prompts⟩ := followUp?_eq_some_iff.1 follows
        exact declined ⟨halways, operation, next, prompts⟩
      rw [hdispatch, respond_of_none inbound hnone]
    · intro operation next halways prompts
      have hsome : followUp? env.config.autoAccept kind e = some operation :=
        followUp?_eq_some_iff.2 ⟨halways, next, prompts⟩
      rw [hdispatch, respond_of_some inbound hsome, Action.bind_apply]
      split
      · next x after hanswer =>
        obtain ⟨own, named, rfl⟩ := prompts.sends
        have hkeeps := Operation.run_error_keeps own named hanswer
        refine ⟨?_, hkeeps⟩
        rw [hanswer]
      · next answer after hanswer =>
        refine ⟨.of_run prompts hstored hanswer, ?_⟩
        rw [hanswer]
        exact address_bind inbound answer env after

-- An agent that accepts everything answers a proposal that names a credential definition.
theorem dispatch_responds_offered :
    let env := { Environment.steady 'a' with config := { autoAccept := .always } }
    let proposal := { Proposal.blank with terms.definition := some "definition" }
    let inbound : Inbound :=
      ⟨Version.v1.propose (.opening "thread") proposal, some (.complete "connection")⟩
    ∃ (e : Exchange) (answer : Outcome) (after : World), e.definition = some "definition" ∧
      answer.Responds e .v1 .offer after.stores ∧
      inbound.dispatch env World.empty =
        (.ok (some ⟨answer.message, .complete "connection"⟩), after) := by
  intro env proposal inbound
  obtain ⟨-, htaken⟩ := dispatch_responds env World.empty inbound
  obtain ⟨hresponds, hdispatch⟩ := htaken _ _ rfl (.offer rfl)
  exact ⟨_, _, _, rfl, hresponds, hdispatch⟩

end Inbound

end CredentialIssuance
