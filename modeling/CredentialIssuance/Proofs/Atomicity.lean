import CredentialIssuance.Proofs.Life

namespace CredentialIssuance

-- A planned step is never refused when it comes to be stored, so if it is not carried out then a
-- collaborator has failed.
theorem Planned.commit_error_caused {env : Environment} {stores : Stores}
    {journal after : Journal} {version : Version} {operation : Operation} {c : Change}
    {world : World} {x : Error} (h : Planned env stores journal after version operation c)
    (shows : env.Shows) (hcommit : c.commit env ⟨stores, after⟩ = (.error x, world)) :
    env.Causes x := by
  refine Change.commit_error_caused shows ?_ hcommit
  intro next hnext
  have htransition := h.transition
  have hprevious : c.previous = some c.record.state := by
    rw [Change.previous, hnext, Option.map_some]
  have htarget : c.target = next := by
    rw [Change.target, hnext, Option.getD_some]
  rw [hprevious, htarget] at htransition
  obtain ⟨hopen, hrank⟩ := htransition.rises
  obtain ⟨old, hold, -⟩ := (h.moves next hnext).stored
  exact ⟨hopen, hrank, old, hold⟩

theorem Operation.run_error_messages {env : Environment} {before after : World} {version : Version}
    {operation : Operation} {x : Error} (shows : env.Shows)
    (h : operation.run version env before = (.error x, after)) (hx : x.isExternal = false) :
    after.stores.messages = before.stores.messages := by
  rcases run_eq_error h with ⟨journal, hplan, rfl⟩ | ⟨c, journal, hplan, hcommit⟩
  · rfl
  · have hcaused := (plan_ok hplan).commit_error_caused shows hcommit
    rw [hcaused.isExternal] at hx
    cases hx

-- The operation may be any, on any stores, and the collaborators may fail in any way. Of the stores
-- it is asked only that they show what they hold, and of the next identifier that it is fresh.
theorem Operation.run_atomic {env : Environment} {before : World} (shows : env.Shows)
    (fresh : before.stores.record? (env.exchangeName before.journal.exchanges) = none)
    (version : Version) (operation : Operation) :
    match operation.run version env before with
    | (.error x, after) =>
      after.stores.records = before.stores.records ∧ after.stores.events = before.stores.events ∧
        (x.isExternal = false → after.stores.messages = before.stores.messages)
    | (.ok ⟨message, record⟩, after) =>
      let previous := (before.stores.record? record.id).map Exchange.state
      after.stores.records = before.stores.records.put record ∧
        after.stores.record? record.id = some record ∧
        (∀ id, id ≠ record.id → after.stores.record? id = before.stores.record? id) ∧
        after.stores.messages = before.stores.messages.put
          ⟨record.id, message.type, some operation.party, message.toJson⟩ ∧
        after.stores.events = before.stores.events ++ [⟨record, previous⟩] ∧
        after.journal.effects = before.journal.effects ++
          [.saveMessage record.id operation.party message, .put record,
            .publish ⟨record, previous⟩] := by
  split
  · next x after h =>
    have hunwritten := run_error h
    exact ⟨hunwritten.records, hunwritten.events, run_error_messages shows h⟩
  · next message record after h =>
    obtain ⟨previous, hstep⟩ := run_ok h
    have hprevious := hstep.previous_eq fresh
    refine ⟨hstep.records, ?_, ?_, ?_, ?_, ?_⟩
    · rw [hstep.record?, if_pos rfl]
    · intro id hid
      rw [hstep.record?, if_neg (Ne.symm hid)]
    · rw [hstep.stores]
      rfl
    · rw [hstep.stores, ← hprevious]
      rfl
    · rw [hstep.effects, ← hprevious]

-- One of two proposals is answered: its record is replaced, and the other one stays. If the store
-- fails at the record, nothing but the message has been written.
theorem Operation.run_atomic_answered :
    let env := Environment.steady 'a'
    let down : Environment := { env with
      answer := fun n call =>
        match call with
        | .put _ => .error "down"
        | call => env.answer n call }
    let w := env.live World.empty [.arriving (.openingProposal "first") "connection",
      .arriving (.openingProposal "second") "connection"]
    let answer : Operation := .answerProposal "e" (some "definition") .blank none
    (∃ message record after, answer.run .v1 env w = (.ok ⟨message, record⟩, after) ∧
      record.id = "e" ∧ record.state = .offerSent ∧
      after.stores.record? "e" = some record ∧
      after.stores.record? "ee" = w.stores.record? "ee" ∧
      after.stores.events = w.stores.events ++ [⟨record, some .proposalReceived⟩]) ∧
      ∃ after, answer.run .v1 down w = (.error (.external "down"), after) ∧
        after.stores.records = w.stores.records ∧ after.stores.events = w.stores.events := by
  intro env down w answer
  have fresh : w.stores.record? (env.exchangeName w.journal.exchanges) = none := by decide +kernel
  have hold : (w.stores.record? "e").map Exchange.state = some .proposalReceived := by
    decide +kernel
  constructor
  · have hanswered : (answer.run .v1 env w).1.toOption.map
        (fun o => (o.record.id, o.record.state)) = some ("e", .offerSent) := by decide +kernel
    have hatomic := run_atomic (Environment.steady_shows 'a') fresh .v1 answer
    cases hrun : answer.run .v1 env w with
    | mk result after =>
      rw [hrun] at hanswered hatomic
      cases result with
      | error x => cases hanswered
      | ok o =>
        obtain ⟨message, record⟩ := o
        obtain ⟨hid, hstate⟩ := Prod.mk.inj (Option.some.inj hanswered)
        obtain ⟨-, hrecord, hothers, -, hevents, -⟩ := hatomic
        dsimp only at hid hstate
        rw [hid] at hrecord hothers hevents
        rw [hold] at hevents
        exact ⟨message, record, after, rfl, hid, hstate, hrecord, hothers "ee" (by decide), hevents⟩
  · have hdown : (answer.run .v1 down w).1 = .error (.external "down") := by decide +kernel
    have shows : down.Shows := Environment.steady_shows 'a'
    have hatomic := run_atomic shows fresh .v1 answer
    cases hrun : answer.run .v1 down w with
    | mk result after =>
      rw [hrun] at hdown hatomic
      cases hdown
      exact ⟨after, rfl, hatomic.1, hatomic.2.1⟩

end CredentialIssuance
