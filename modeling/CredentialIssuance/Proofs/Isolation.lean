import CredentialIssuance.Proofs.Separation

namespace CredentialIssuance

-- How the record of a step comes by its connection, of which `s` are the stores before.
inductive Binds (config : Config) (s : Stores) : Operation → Option State → Exchange → Prop where
  | started {operation : Operation} {e : Exchange} (own : operation.party = .sender) :
      Binds config s operation none e
  | opened {kind : Kind} {inbound : Inbound} {connection : Connection} {e : Exchange}
      (ready : inbound.ready = .ok connection) (bound : e.connectionId = connection.id) :
      Binds config s (.receive kind inbound) none e
  | kept {operation : Operation} {state : State} {old e : Exchange}
      (stored : s.record? e.id = some old) (same : e.connectionId = old.connectionId)
      (reached : ∀ c ∈ operation.connection?,
        old.connectionId = c ∨ old.connectionId = config.connectionlessId) :
      Binds config s operation (some state) e
  | takenUp {inbound : Inbound} {connection : Connection} {old e : Exchange}
      (stored : s.record? e.id = some old) (unbound : old.connectionId = config.connectionlessId)
      (offered : old.state = .offerSent) (ready : inbound.ready = .ok connection)
      (bound : e.connectionId = connection.id) (requested : e.state = .requestReceived) :
      Binds config s (.receive .request inbound) (some .offerSent) e

theorem Operation.plan_binds {env : Environment} {stores : Stores} {journal after : Journal}
    {version : Version} {operation : Operation} {c : Change} {e : Exchange}
    (h : operation.plan version env stores journal = (.ok c, after))
    (reaches : c.record.Reaches c.next e) :
    Binds env.config stores operation c.previous e := by
  obtain ⟨updated, rfl⟩ := reaches.eq
  -- A look-up over a connection gives a record that is bound to it.
  have hreached : ∀ {e : Exchange} {thread role} {connection : Option String},
      e.Answers thread role connection → ∀ c ∈ connection,
        e.connectionId = c ∨ e.connectionId = env.config.connectionlessId :=
    fun hanswers c hc => .inl (hanswers.2.2 c hc)
  cases operation with
  | propose connection proposal autoAccept =>
    obtain ⟨now, rfl, -⟩ := Holder.propose_ok h
    exact .started rfl
  | offer connection definition details autoAccept =>
    obtain ⟨payload, now, rfl, -⟩ := Issuer.offer_ok h
    exact .started rfl
  | answerProposal exchange definition details autoAccept =>
    obtain ⟨stored, _, _, _, hstored, -, -, -, -, rfl⟩ := Issuer.answerProposal_ok h
    have hself := Stores.record?_self hstored
    exact .kept hself rfl nofun
  | request exchange did autoAccept =>
    obtain ⟨stored, _, _, _, _, _, hstored, -, -, -, -, -, -, rfl⟩ := Holder.request_ok h
    have hself := Stores.record?_self hstored
    exact .kept hself rfl nofun
  | issue exchange comment autoAccept =>
    obtain ⟨stored, _, _, _, _, _, _, _, hstored, -, -, -, -, -, -, -, -, rfl⟩ := Issuer.issue_ok h
    have hself := Stores.record?_self hstored
    exact .kept hself rfl nofun
  | acknowledge exchange =>
    obtain ⟨stored, _, hstored, -, -, -, rfl⟩ := Holder.acknowledge_ok h
    have hself := Stores.record?_self hstored
    exact .kept hself rfl nofun
  | decline exchange reason =>
    obtain ⟨stored, _, hstored, -, -, -, rfl⟩ := Holder.decline_ok h
    have hself := Stores.record?_self hstored
    exact .kept hself rfl nofun
  | receive kind inbound =>
    cases kind with
    | propose =>
      obtain ⟨-, -, connection, _, now, hready, -, -, rfl, -⟩ := Issuer.receiveProposal_ok h
      exact .opened hready rfl
    | offer =>
      obtain ⟨_, _, -, -, ⟨stored, hstored, hanswers, -, -, rfl⟩ |
        ⟨connection, now, hready, -, rfl, -⟩⟩ :=
        Holder.receiveOffer_ok h
      · exact .kept hstored rfl (hreached hanswers)
      · exact .opened hready rfl
    | request =>
      obtain ⟨_, connection, -, hready, ⟨stored, hstored, -, hbound, -, hstate, rfl⟩ |
        ⟨now, -, rfl, -⟩⟩ := Issuer.receiveRequest_ok h
      · rw [Change.previous, Change.moving, Option.map_some, hstate]
        rcases hbound with hsame | hunbound
        · refine .kept hstored hsame.symm fun c hc => .inl ?_
          change c ∈ inbound.connectionId at hc
          rw [Inbound.connectionId, (Inbound.ready_ok hready).1] at hc
          exact hsame.trans (Option.some.inj hc)
        · exact .takenUp hstored hunbound hstate hready rfl rfl
      · exact .opened hready rfl
    | issue =>
      obtain ⟨stored, _, _, _, _, hstored, -, -, hanswers, -, -, -, rfl⟩ :=
        Holder.receiveCredential_ok h
      exact .kept hstored rfl (hreached hanswers)
    | ack =>
      obtain ⟨-, -, stored, hstored, hanswers, -, -, rfl⟩ := Issuer.receiveAck_ok h
      exact .kept hstored rfl (hreached hanswers)
    | problemReport =>
      obtain ⟨stored, hstored, -, hbound, -, -, rfl⟩ := receiveReport_ok h
      exact .kept hstored rfl hbound

section Frames

variable {env : Environment} {before after : World} {version : Version} {operation : Operation}
  {outcome : Outcome} {e : Exchange}

theorem Operation.run_binds (fresh : operation.exchange? = none → before.Fresh env)
    (h : operation.run version env before = (.ok outcome, after)) :
    ∃ previous, Step env before after version operation outcome previous ∧
      Binds env.config before.stores operation previous outcome.record ∧
      (previous = none → before.stores.record? outcome.record.id = none) := by
  obtain ⟨c, journal, hplan, -, hreaches, hstep⟩ := run_planned h
  refine ⟨c.previous, hstep, plan_binds hplan hreaches, ?_⟩
  intro hnone
  have hunnamed : operation.exchange? = none := by
    by_contra hnamed
    obtain ⟨id, hid⟩ := Option.ne_none_iff_exists'.1 hnamed
    obtain ⟨-, next, hnext⟩ := plan_named hid hplan
    rw [Change.previous, hnext] at hnone
    cases hnone
  have hid := (hstep.opens hnone).id
  rw [hid]
  by_contra hsome
  obtain ⟨old, hold⟩ := Option.ne_none_iff_exists'.1 hsome
  obtain ⟨hmem, hsame⟩ := Stores.record?_eq_some_iff.1 hold
  exact (fresh hunnamed).exchange old hmem hsame

-- An operation that names a record leaves all other records as they are.
theorem Operation.run_record?_of_ne {named id : String} (hnamed : operation.exchange? = some named)
    (hne : named ≠ id) :
    (operation.run version env before).2.stores.record? id = before.stores.record? id := by
  cases hrun : operation.run version env before with
  | mk result after =>
    cases result with
    | error x => exact (run_error hrun).record? id
    | ok outcome =>
      obtain ⟨hid, state, hstep⟩ := run_named hnamed hrun
      rw [hstep.record?, hid, if_neg hne]

-- The record that an inbound message concerns is bound to its connection or to none.
theorem Operation.receive_elsewhere {kind : Kind} {inbound : Inbound} {connection : String}
    (fresh : before.Fresh env) (arrived : inbound.connectionId = some connection)
    (hstored : before.stores.record? e.id = some e) (helse : e.connectionId ≠ connection)
    (hbound : e.connectionId ≠ env.config.connectionlessId)
    (h : (Operation.receive kind inbound).run version env before = (.ok outcome, after)) :
    outcome.record.id ≠ e.id := by
  intro hid
  obtain ⟨previous, -, hbinds, hnew⟩ := run_binds (fun _ => fresh) h
  rw [hid, hstored] at hnew
  cases hbinds with
  | started own => cases own
  | opened => cases hnew rfl
  | kept stored same reached =>
    rw [hid, hstored] at stored
    cases stored
    rcases reached connection arrived with hsame | hplaceholder
    · exact helse hsame
    · exact hbound hplaceholder
  | takenUp stored unbound =>
    rw [hid, hstored] at stored
    cases stored
    exact hbound unbound

-- The automatic response acts on the record of the message, so it stays where the message led.
theorem Inbound.dispatch_elsewhere {inbound : Inbound} {connection : String}
    (fresh : before.Fresh env) (arrived : inbound.connectionId = some connection)
    (hstored : before.stores.record? e.id = some e) (helse : e.connectionId ≠ connection)
    (hbound : e.connectionId ≠ env.config.connectionlessId) :
    (inbound.dispatch env before).2.stores.record? e.id = some e := by
  refine Deed.dispatch_induction (P := fun w => w.stores.record? e.id = some e) ?_ ?_ ?_
  · intro between after hbetween hrested
    rw [hrested.record?]
    exact hbetween
  · cases hrun : (Operation.receive inbound.message.kind inbound).run inbound.message.version env
        before with
    | mk result after =>
      cases result with
      | error x =>
        rw [(Operation.run_error hrun).record?]
        exact hstored
      | ok outcome =>
        have hne := Operation.receive_elsewhere fresh arrived hstored helse hbound hrun
        obtain ⟨previous, hstep⟩ := Operation.run_ok hrun
        rw [hstep.record?, if_neg hne]
        exact hstored
  · intro outcome between operation hrun _ hnamed hbetween
    have hne := Operation.receive_elsewhere fresh arrived hstored helse hbound hrun
    rw [Operation.run_record?_of_ne hnamed hne]
    exact hbetween

end Frames

section Connections

variable {env : Environment} {before : World} {operation : Operation} {e old : Exchange}

theorem Inbound.ready_complete {inbound : Inbound} {c : Connection} (h : inbound.ready = .ok c) :
    inbound.connection = some c ∧ c.state = .complete := by
  obtain ⟨hsome, hready⟩ := ready_ok h
  exact ⟨hsome, of_decide_eq_true hready⟩

-- A record that is stored after an operation was stored before, or the operation has written it.
theorem Operation.run_stored (version : Version)
    (fresh : operation.exchange? = none → before.Fresh env)
    (h : (operation.run version env before).2.stores.record? e.id = some e) :
    before.stores.record? e.id = some e ∨
      ∃ previous, Binds env.config before.stores operation previous e ∧
        (previous = none → before.stores.record? e.id = none) := by
  cases hrun : operation.run version env before with
  | mk result after =>
    rw [hrun] at h
    cases result with
    | error x =>
      rw [(run_error hrun).record?] at h
      exact .inl h
    | ok outcome =>
      obtain ⟨previous, hstep, hbinds, hnew⟩ := run_binds fresh hrun
      rw [hstep.record?] at h
      split at h
      · cases h
        exact .inr ⟨previous, hbinds, hnew⟩
      · exact .inl h

-- A record that a message opens is bound to the complete connection that the message came over.
theorem Operation.receive_opened (version : Version) {kind : Kind} {inbound : Inbound}
    (fresh : before.Fresh env) (hnew : before.stores.record? e.id = none)
    (h : ((Operation.receive kind inbound).run version env before).2.stores.record? e.id = some e) :
    ∃ c, inbound.connection = some c ∧ c.state = .complete ∧ e.connectionId = c.id := by
  rcases run_stored version (fun _ => fresh) h with hstored | ⟨previous, hbinds, -⟩
  · cases hnew.symm.trans hstored
  · cases hbinds with
    | started own => cases own
    | opened ready bound =>
      obtain ⟨hsome, hcomplete⟩ := Inbound.ready_complete ready
      exact ⟨_, hsome, hcomplete, bound⟩
    | kept stored => cases hnew.symm.trans stored
    | takenUp stored => cases hnew.symm.trans stored

-- Only a request binds a record that is already there, and only one without a connection.
theorem Operation.run_rebound (version : Version)
    (fresh : operation.exchange? = none → before.Fresh env)
    (hold : before.stores.record? e.id = some old)
    (h : (operation.run version env before).2.stores.record? e.id = some e)
    (hne : e.connectionId ≠ old.connectionId) :
    ∃ inbound c, operation = .receive .request inbound ∧ inbound.connection = some c ∧
      c.state = .complete ∧ old.connectionId = env.config.connectionlessId ∧
      e.connectionId = c.id ∧ old.state = .offerSent ∧ e.state = .requestReceived := by
  rcases run_stored version fresh h with hstored | ⟨previous, hbinds, hnew⟩
  · cases hold.symm.trans hstored
    exact absurd rfl hne
  · cases hbinds with
    | started => cases hold.symm.trans (hnew rfl)
    | opened => cases hold.symm.trans (hnew rfl)
    | kept stored same =>
      cases hold.symm.trans stored
      exact absurd same hne
    | takenUp stored unbound offered ready bound requested =>
      cases hold.symm.trans stored
      obtain ⟨hsome, hcomplete⟩ := Inbound.ready_complete ready
      exact ⟨_, _, rfl, hsome, hcomplete, unbound, bound, offered, requested⟩

end Connections

-- What connections mean to the agent: how a record comes by its connection, and what a message may
-- then do to it.
structure World.Isolates (env : Environment) (w : World) : Prop where
  -- A message over a connection, with the response to it, changes no record of another connection.
  elsewhere : ∀ (inbound : Inbound) (c : Connection), inbound.connection = some c →
    ∀ id e, w.stores.record? id = some e → e.connectionId ≠ c.id →
      e.connectionId ≠ env.config.connectionlessId →
        (inbound.dispatch env w).2.stores.record? id = some e
  -- What a message opens is bound to the connection of the message, which is complete.
  opened : ∀ version kind (inbound : Inbound) id e, w.stores.record? id = none →
    ((Operation.receive kind inbound).run version env w).2.stores.record? id = some e →
      ∃ c, inbound.connection = some c ∧ c.state = .complete ∧ e.connectionId = c.id
  -- Only the request that takes up an offer made without a connection binds a record that is there.
  rebound : ∀ version (operation : Operation) id old e, w.stores.record? id = some old →
    (operation.run version env w).2.stores.record? id = some e → e.connectionId ≠ old.connectionId →
      ∃ inbound c, operation = .receive .request inbound ∧ inbound.connection = some c ∧
        c.state = .complete ∧ old.connectionId = env.config.connectionlessId ∧
        e.connectionId = c.id ∧ old.state = .offerSent ∧ e.state = .requestReceived
  issuer : ∀ e ∈ w.stores.records.entries, ∀ e' ∈ w.stores.records.entries,
    e.role = .issuer → e'.role = .issuer → e.threadId = e'.threadId → e = e'
  -- So no message over one connection stands for an answer to an offer that is bound to another:
  -- the issuer's record on the thread is still the one of the offer, and unchanged.
  answered : ∀ (inbound : Inbound) (c : Connection), inbound.connection = some c →
    ∀ e ∈ w.stores.records.entries, e.role = .issuer → e.connectionId ≠ c.id →
      e.connectionId ≠ env.config.connectionlessId →
        ∀ e' ∈ (inbound.dispatch env w).2.stores.records.entries,
          e'.role = .issuer → e'.threadId = e.threadId → e' = e

theorem World.Separate.issuer {w : World} (hseparate : w.Separate) {e e' : Exchange}
    (he : e ∈ w.stores.records.entries) (he' : e' ∈ w.stores.records.entries)
    (hrole : e.role = .issuer) (hrole' : e'.role = .issuer) (hthread : e.threadId = e'.threadId) :
    e = e' := by
  by_contra hne
  have hholder := (hseparate e he e' he' hne hthread (hrole.trans hrole'.symm)).1
  cases hrole.symm.trans hholder

theorem World.Separate.isolates {env : Environment} {w : World} (hseparate : w.Separate)
    (fresh : w.Fresh env) : w.Isolates env := by
  have hover : ∀ {inbound : Inbound} {c : Connection}, inbound.connection = some c →
      inbound.connectionId = some c.id := by
    intro inbound c hc
    rw [Inbound.connectionId, hc, Option.map_some]
  constructor
  case elsewhere =>
    intro inbound c hc id e hstored helse hbound
    cases (Stores.record?_eq_some_iff.1 hstored).2
    exact Inbound.dispatch_elsewhere fresh (hover hc) hstored helse hbound
  case opened =>
    intro version kind inbound id e hnew hstored
    cases (Stores.record?_eq_some_iff.1 hstored).2
    exact Operation.receive_opened version fresh hnew hstored
  case rebound =>
    intro version operation id old e hold hstored hne
    cases (Stores.record?_eq_some_iff.1 hstored).2
    exact Operation.run_rebound version (fun _ => fresh) hold hstored hne
  case issuer =>
    intro e he e' he' hrole hrole' hthread
    exact hseparate.issuer he he' hrole hrole' hthread
  case answered =>
    intro inbound c hc e he hrole helse hbound e' he' hrole' hthread
    have hstored := Stores.record?_eq_some_iff.2 ⟨he, rfl⟩
    have hkept := Inbound.dispatch_elsewhere fresh (hover hc) hstored helse hbound
    have hafter : (inbound.dispatch env w).2.Separate := hseparate.perform fresh (.dispatch inbound)
    exact hafter.issuer he' (Stores.record?_eq_some_iff.1 hkept).1 hrole' hrole hthread

namespace Environment

-- Whatever an agent has been through, it keeps its connections apart.
theorem live_isolates {env : Environment} {deeds : List Deed} (fresh : env.Fresh World.empty deeds) :
    (env.live World.empty deeds).Isolates env :=
  (World.Separate.empty.live fresh).isolates fresh.live

-- An offer over one connection, and a report on its thread over another.
theorem live_isolates_offered :
    let env := Environment.steady 'a'
    let deeds : List Deed := [.operate .v1 (.offer (some "first") "definition" .blank none)]
    let world := env.live World.empty deeds
    let report : Inbound := ⟨.reportOn "a", some (.complete "second")⟩
    env.Fresh World.empty deeds ∧ ∃ e ∈ world.stores.records.entries, e.state = .offerSent ∧
      (report.dispatch env world).2.stores.record? e.id = some e := by
  intro env deeds world report
  have fresh : env.Fresh World.empty deeds := by decide +kernel
  have hoffered : ∃ e ∈ world.stores.records.entries,
      e.state = .offerSent ∧ e.connectionId = "first" := by decide +kernel
  obtain ⟨e, he, hstate, hconnection⟩ := hoffered
  refine ⟨fresh, e, he, hstate, ?_⟩
  have hstored := Stores.record?_eq_some_iff.2 ⟨he, rfl⟩
  refine (live_isolates fresh).elsewhere report (.complete "second") rfl e.id e hstored ?_ ?_
  · rw [hconnection]
    decide
  · rw [hconnection]
    decide

end Environment

end CredentialIssuance
