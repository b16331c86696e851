import CredentialIssuance.Proofs.Operation

namespace CredentialIssuance

-- How a dispatch ends, and in which world.
inductive Dispatched (env : Environment) (world : World) (inbound : Inbound) :
    Except Error (Option Outbound) × World → Prop where
  | refused {x : Error} {after : World}
      (received : (Operation.receive inbound.message.kind inbound).run inbound.message.version env
        world = (.error x, after)) :
      Dispatched env world inbound (.error x, after)
  | silent {outcome : Outcome} {after : World}
      (received : (Operation.receive inbound.message.kind inbound).run inbound.message.version env
        world = (.ok outcome, after))
      (follows : followUp? env.config.autoAccept inbound.message.kind outcome.record = none) :
      Dispatched env world inbound (.ok none, after)
  | unanswered {outcome : Outcome} {between after : World} {operation : Operation} {x : Error}
      (received : (Operation.receive inbound.message.kind inbound).run inbound.message.version env
        world = (.ok outcome, between))
      (follows : followUp? env.config.autoAccept inbound.message.kind outcome.record =
        some operation)
      (answered : operation.run inbound.message.version env between = (.error x, after)) :
      Dispatched env world inbound (.error x, after)
  | unaddressed {outcome answer : Outcome} {between after : World} {operation : Operation}
      {x : Error} {journal : Journal}
      (received : (Operation.receive inbound.message.kind inbound).run inbound.message.version env
        world = (.ok outcome, between))
      (follows : followUp? env.config.autoAccept inbound.message.kind outcome.record =
        some operation)
      (answered : operation.run inbound.message.version env between = (.ok answer, after))
      (addressed : address inbound answer.record env after.stores after.journal =
        (.error x, journal)) :
      Dispatched env world inbound (.error x, ⟨after.stores, journal⟩)
  | answered {outcome answer : Outcome} {between after : World} {operation : Operation}
      {connection : Connection} {journal : Journal}
      (received : (Operation.receive inbound.message.kind inbound).run inbound.message.version env
        world = (.ok outcome, between))
      (follows : followUp? env.config.autoAccept inbound.message.kind outcome.record =
        some operation)
      (answered : operation.run inbound.message.version env between = (.ok answer, after))
      (addressed : address inbound answer.record env after.stores after.journal =
        (.ok connection, journal)) :
      Dispatched env world inbound (.ok (some ⟨answer.message, connection⟩), ⟨after.stores, journal⟩)

theorem Inbound.dispatch_cases (env : Environment) (world : World) (inbound : Inbound) :
    Dispatched env world inbound (inbound.dispatch env world) := by
  unfold dispatch
  rw [Action.bind_apply]
  cases received : (Operation.receive inbound.message.kind inbound).run inbound.message.version env
      world with
  | mk result between =>
    cases result with
    | error x => exact .refused received
    | ok outcome =>
      simp only
      rw [Action.lift_bind_apply]
      simp only [Inquiry.config]
      cases follows : followUp? env.config.autoAccept inbound.message.kind outcome.record with
      | none => exact .silent received follows
      | some operation =>
        simp only
        rw [Action.bind_apply]
        cases answered : operation.run inbound.message.version env between with
        | mk result after =>
          cases result with
          | error x => exact .unanswered received follows answered
          | ok answer =>
            simp only
            rw [Action.lift_bind_apply]
            cases addressed : address inbound answer.record env after.stores after.journal with
            | mk result journal =>
              cases result with
              | error x => exact .unaddressed received follows answered addressed
              | ok connection => exact .answered received follows answered addressed

-- The step that answers a message is one that sends, and it names no connection.
theorem followUp?_sends {default : AutoAccept} {kind : Kind} {e : Exchange} {operation : Operation}
    (h : followUp? default kind e = some operation) :
    operation.party = .sender ∧ operation.connection? = none := by
  unfold followUp? at h
  split at h
  · cases kind with
    | propose =>
      simp only at h
      split at h
      · cases h
        exact ⟨rfl, rfl⟩
      · cases h
    | ack => cases h
    | problemReport => cases h
    | _ =>
      cases h
      exact ⟨rfl, rfl⟩
  · cases h

-- It names the record of the message.
theorem followUp?_named {default : AutoAccept} {kind : Kind} {e : Exchange} {operation : Operation}
    (h : followUp? default kind e = some operation) : operation.exchange? = some e.id := by
  unfold followUp? at h
  split at h
  · cases kind with
    | propose =>
      simp only at h
      split at h
      · cases h
        rfl
      · cases h
    | ack => cases h
    | problemReport => cases h
    | _ =>
      cases h
      rfl
  · cases h

end CredentialIssuance
