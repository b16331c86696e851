import CredentialIssuance.Proofs.Arrival
import CredentialIssuance.Proofs.Asking

namespace CredentialIssuance

def Call.isSend : Call → Bool
  | .send .. => true
  | _ => false

theorem Call.isSend_of_isEffect (c : Call) (h : c.isEffect = false) : c.isSend = false := by
  cases c <;> first | rfl | cases h

theorem Call.isSend_of_isStoring (c : Call) (h : c.isStoring = true) : c.isSend = false := by
  cases c <;> first | rfl | cases h

-- An operation sends nothing.
theorem Operation.run_quiet (version : Version) (operation : Operation) :
    (operation.run version).Avoids Call.isSend := by
  refine .bind (.lift (operation.plan_reads version) Call.isSend_of_isEffect) fun change => ?_
  exact .bind (.commit Call.isSend_of_isStoring change) fun _ => .pure _

-- A message is taken in and answered without sending: the response is left to the caller.
theorem Inbound.dispatch_quiet (inbound : Inbound) : inbound.dispatch.Avoids Call.isSend := by
  refine .bind (Operation.run_quiet _ _) fun received => ?_
  refine .bind (.lift .config Call.isSend_of_isEffect) fun config => ?_
  split
  · exact .pure _
  · refine .bind (Operation.run_quiet _ _) fun answer => ?_
    exact .bind (.lift (address_reads _ _) Call.isSend_of_isEffect) fun _ => .pure _

-- How an agent comes by the connection for a message of the record with this one's identifier: it
-- is the one that the agent has been given, or it has looked up the record's.
inductive Addressed (env : Environment) (given : Option Connection) (calls : List Call) (id : String)
    (c : Connection) : Prop where
  | given (arrived : given = some c) (own : c.id = id)
  | lookedUp {n : Nat} (asked : calls[n]? = some (.connection id))
      (answered : env.answer n (.connection id) = .ok c)

-- What is handed over between the two: nothing, or the message of an operation that has been
-- carried out just before.
inductive Delivers (env : Environment) (given : Option Connection) (before after : World) : Prop where
  | nothing (quiet : before.journal.Avoids Call.isSend after.journal)
  | posted {between done : World} {version : Version} {operation : Operation} {outcome : Outcome}
      {c : Connection} (quiet : before.journal.Avoids Call.isSend between.journal)
      (own : operation.party = .sender)
      (ran : operation.run version env between = (.ok outcome, done))
      (stores : after.stores = done.stores)
      (sent : after.journal.effects = done.journal.effects ++ [.send outcome.message c])
      (addressed : Addressed env given after.journal.calls outcome.record.connectionId c)

section Deliver

variable {env : Environment} {world : World}

theorem Action.send_apply (m : Message) (c : Connection) (env : Environment) (world : World) :
    (send m c env world).2 = ⟨world.stores, world.journal.asked (.send m c)⟩ := rfl

-- A message that goes out over a connection that has been looked up.
theorem sendOver_sends (env : Environment) (world : World) (m : Message) (id : String) :
    let after := (sendOver m id env world).2
    after.stores = world.stores ∧
      (world.journal.Avoids Call.isSend after.journal ∨
        ∃ c, after.journal.effects = world.journal.effects ++ [.send m c] ∧
          Addressed env none after.journal.calls id c) := by
  intro after
  have hasked : (world.journal.asked (.connection id)).effects = world.journal.effects := by
    rw [Journal.effects_asked]
    exact List.append_nil _
  have hafter : after = (sendOver m id env world).2 := rfl
  unfold sendOver at hafter
  rw [Action.lift_bind_apply] at hafter
  cases hanswer : env.answer world.journal.calls.length (.connection id) with
  | error text =>
    simp only [Inquiry.call, hanswer] at hafter
    rw [hafter]
    exact ⟨rfl, .inl (.asked world.journal rfl)⟩
  | ok c =>
    simp only [Inquiry.call, hanswer] at hafter
    rw [Action.send_apply] at hafter
    rw [hafter]
    refine ⟨rfl, .inr ⟨c, ?_, .lookedUp (n := world.journal.calls.length) ?_ hanswer⟩⟩
    · show ((world.journal.asked (.connection id)).asked (.send m c)).effects = _
      rw [Journal.effects_asked, hasked]
      rfl
    · simp [Journal.asked]

section Post

variable {version : Version} {operation : Operation} {outcome : Outcome} {done : World}
  (own : operation.party = .sender)

include own in
-- The message of an operation goes out, or the look-up of the connection fails and nothing does.
theorem Delivers.of_sendOver {journal : Journal}
    (ran : operation.run version env world = (.ok outcome, done))
    (extended : done.journal.Extends env journal) :
    Delivers env none world
      (sendOver outcome.message outcome.record.connectionId env ⟨done.stores, journal⟩).2 := by
  have hrun := Operation.run_quiet version operation env world
  rw [ran] at hrun
  obtain ⟨hstores, hnone | ⟨c, hsent, haddressed⟩⟩ :=
    sendOver_sends env ⟨done.stores, journal⟩ outcome.message outcome.record.connectionId
  · exact .nothing (hrun.trans ((extended.avoids Call.isSend_of_isEffect).trans hnone))
  · refine .posted (.refl world.journal) own ran hstores ?_ haddressed
    rw [hsent, extended.effects]

include own in
theorem deliver_delivers : Delivers env none world (deliver version operation env world).2 := by
  have hquiet := Operation.run_quiet version operation env world
  unfold deliver
  rw [Action.bind_apply]
  cases hrun : operation.run version env world with
  | mk result done =>
    rw [hrun] at hquiet
    cases result with
    | error x => exact .nothing hquiet
    | ok outcome =>
      simp only [Action.bind_pure_snd]
      exact .of_sendOver own hrun (.refl _)

include own in
-- The record that is looked up once more is the one that the operation has just stored.
theorem deliverStored_delivers {exchange : String} (named : operation.exchange? = some exchange) :
    Delivers env none world (deliverStored version exchange operation env world).2 := by
  have hquiet := Operation.run_quiet version operation env world
  unfold deliverStored
  rw [Action.bind_apply]
  cases hrun : operation.run version env world with
  | mk result done =>
    rw [hrun] at hquiet
    cases result with
    | error x => exact .nothing hquiet
    | ok outcome =>
      simp only
      rw [Action.lift_bind_apply]
      have hreads := Inquiry.Reads.record exchange env done.stores done.journal
      cases hrecord : Inquiry.record exchange env done.stores done.journal with
      | mk found journal =>
        rw [hrecord] at hreads
        cases found with
        | error x => exact .nothing (hquiet.trans (hreads.avoids Call.isSend_of_isEffect))
        | ok record =>
          obtain ⟨hid, state, hstep⟩ := Operation.run_named named hrun
          obtain ⟨-, hfound, -⟩ := Inquiry.record_eq_ok_iff.1 hrecord
          rw [hstep.record?, if_pos hid] at hfound
          cases hfound
          simp only [Action.bind_pure_snd]
          exact .of_sendOver own hrun hreads

end Post

theorem Command.run_delivers (version : Version) (command : Command) :
    Delivers env none world (command.run version env world).2 := by
  cases command with
  | propose connection proposal autoAccept => exact deliver_delivers rfl
  | offer connection definition details autoAccept =>
    cases connection with
    | none => exact .nothing (.refl world.journal)
    | some connection => exact deliver_delivers rfl
  | answerProposal exchange definition details autoAccept => exact deliver_delivers rfl
  | acceptOffer exchange did autoAccept => exact deliverStored_delivers rfl rfl
  | declineOffer exchange reason => exact deliverStored_delivers rfl rfl
  | acceptRequest exchange comment autoAccept => exact deliverStored_delivers rfl rfl
  | acceptCredential exchange => exact deliverStored_delivers rfl rfl

end Deliver

section Receive

variable {env : Environment} {world between done : World}

-- An operation that names a record leaves it on its connection.
theorem Operation.run_named_connection {version : Version} {operation : Operation} {id : String}
    {outcome : Outcome} {e : Exchange} (named : operation.exchange? = some id)
    (h : operation.run version env world = (.ok outcome, done))
    (hstored : world.stores.record? id = some e) : outcome.record.connectionId = e.connectionId := by
  obtain ⟨hid, -⟩ := run_named named h
  obtain ⟨c, journal, hplan, -, hreaches, -⟩ := run_planned h
  obtain ⟨-, next, hnext⟩ := plan_named named hplan
  have hbinds := plan_binds hplan hreaches
  rw [Change.previous, hnext, Option.map_some] at hbinds
  generalize c.record.state = state at hbinds
  cases hbinds with
  | kept stored same =>
    rw [hid, hstored] at stored
    cases stored
    exact same
  | takenUp => cases named

-- What follows a message is no report, so the message has found the record of its connection.
theorem followUp?_reader {default : AutoAccept} {kind : Kind} {e : Exchange} {operation : Operation}
    (h : followUp? default kind e = some operation) : kind.reader.isSome = true := by
  unfold followUp? at h
  split at h
  · cases kind with
    | problemReport => cases h
    | _ => rfl
  · cases h

-- The response goes back over the connection of the message, or over one that has been looked up.
theorem address_addressed {inbound : Inbound} {e : Exchange} {c : Connection} {journal : Journal}
    (own : ∀ id ∈ inbound.connectionId, e.connectionId = id)
    (h : address inbound e env world.stores world.journal = (.ok c, journal)) (more : List Call) :
    Addressed env inbound.connection (journal.calls ++ more) e.connectionId c := by
  unfold address at h
  cases hgiven : inbound.connection with
  | some given =>
    simp only [hgiven] at h
    obtain ⟨rfl, -⟩ := Inquiry.pure_eq_ok_iff.1 h
    exact .given rfl (own given.id (by simp [Inbound.connectionId, hgiven])).symm
  | none =>
    simp only [hgiven] at h
    obtain ⟨hanswer, rfl⟩ := Inquiry.ask_eq_ok_iff.1 h
    exact .lookedUp (n := world.journal.calls.length) (by simp [Journal.asked]) hanswer

theorem Inbound.decode_connection {text : String} {connection : Option Connection}
    {inbound : Inbound} (h : decode text connection = .ok inbound) :
    inbound.connection = connection := by
  cases hread : Message.decode text with
  | error x =>
    rw [decode, hread] at h
    cases h
  | ok message =>
    rw [decode, hread] at h
    cases h
    rfl

theorem receiveText_delivers (text : String) (connection : Option Connection) :
    Delivers env connection world (receiveText text connection env world).2 := by
  unfold receiveText
  rw [Action.bind_apply]
  have htext : dispatchText text connection env world =
      match Inbound.decode text connection with
      | .error x => (.error x, world)
      | .ok inbound => inbound.dispatch env world := by
    show Action.bind (Action.ofExcept (Inbound.decode text connection)) _ env world = _
    unfold Action.bind Action.ofExcept
    cases Inbound.decode text connection <;> rfl
  rw [htext]
  cases hdecode : Inbound.decode text connection with
  | error x => exact .nothing (.refl world.journal)
  | ok inbound =>
    simp only
    have hdispatched := inbound.dispatch_cases env world
    have hnothing := inbound.dispatch_quiet env world
    generalize inbound.dispatch env world = result at hdispatched hnothing
    cases hdispatched with
    | refused received => exact .nothing hnothing
    | silent received follows => exact .nothing hnothing
    | unanswered received follows answered => exact .nothing hnothing
    | unaddressed received follows answered addressed => exact .nothing hnothing
    | @answered outcome answer between done operation c journal received follows answered addressed =>
      have hreceive := Operation.run_quiet inbound.message.version
        (.receive inbound.message.kind inbound) env world
      rw [received] at hreceive
      have hextends := address_reads inbound answer.record env done.stores done.journal
      rw [addressed] at hextends
      obtain ⟨previous, hstep⟩ := Operation.run_ok received
      have hstored : between.stores.record? outcome.record.id = some outcome.record := by
        rw [hstep.record?, if_pos rfl]
      have hkept := Operation.run_named_connection (followUp?_named follows) answered hstored
      have hown := (Operation.run_receive_took (followUp?_reader follows) received).2
      rw [← hkept] at hown
      have haddressed := address_addressed hown addressed [.send answer.message c]
      rw [Inbound.decode_connection hdecode] at haddressed
      simp only [Action.bind_pure_snd, Action.send_apply]
      refine .posted hreceive (followUp?_sends follows).1 answered rfl ?_ haddressed
      show (journal.asked (.send answer.message c)).effects = _
      rw [Journal.effects_asked, hextends.effects]
      rfl

-- What a deed hands over. Only a text that is taken in comes with a connection to answer over.
theorem Deed.perform_delivers (env : Environment) (world : World) (deed : Deed) :
    ∃ given, (∀ c, given = some c → ∃ text, deed = .receive text (some c)) ∧
      Delivers env given world (deed.perform env world) := by
  cases deed with
  | operate version operation =>
    exact ⟨none, nofun, .nothing (Operation.run_quiet version operation env world)⟩
  | obey version command => exact ⟨none, nofun, command.run_delivers version⟩
  | dispatch inbound => exact ⟨none, nofun, .nothing (inbound.dispatch_quiet env world)⟩
  | receive text connection =>
    exact ⟨connection, fun c hc => ⟨text, by rw [hc]⟩, receiveText_delivers text connection⟩

end Receive

-- The way of a record through completed steps, from what is stored for it at first, which may be
-- nothing, to what is stored after the last one.
inductive Advances (first : Option Exchange) : List Outcome → Option Exchange → Prop where
  | unchanged : Advances first [] first
  | completed {steps : List Outcome} {now : Option Exchange} {o : Outcome} {party : Party}
      (earlier : Advances first steps now) (origin : ∀ e ∈ now, e.SameOrigin o.record)
      (transition : Transition o.record.role party o.message.kind (now.map Exchange.state)
        o.record.state) :
      Advances first (steps ++ [o]) (some o.record)

-- Every record has been advanced by completed steps only, if at all.
def World.Advanced (before after : World) : Prop :=
  ∀ id, ∃ steps, Advances (before.stores.record? id) steps (after.stores.record? id) ∧
    ∀ o ∈ steps, o.record.id = id ∧ o.StaysIn after

section Advanced

variable {env : Environment} {before between after : World}

theorem World.Advanced.refl (w : World) : w.Advanced w := fun _ => ⟨[], .unchanged, by simp⟩

-- Nothing is written by what comes last.
theorem World.Advanced.unwritten (h : before.Advanced between) (hlast : Unwritten env between after)
    (preserves : between.Preserves after) : before.Advanced after := by
  intro id
  obtain ⟨steps, hadvances, hsteps⟩ := h id
  refine ⟨steps, by rw [hlast.record?]; exact hadvances, ?_⟩
  intro o ho
  obtain ⟨hid, hstays⟩ := hsteps o ho
  exact ⟨hid, hstays.later hlast.precedes preserves⟩

theorem World.Advanced.run (h : before.Advanced between) (names : Function.Injective env.exchangeName)
    (named : between.Named env) {version : Version} {operation : Operation}
    (routed : operation.Routed version) :
    before.Advanced (operation.run version env between).2 := by
  have hpreserves := Operation.run_preserves names named routed.addressed
  have hprecedes := Operation.run_precedes names named version operation
  cases hrun : operation.run version env between with
  | mk result after =>
    rw [hrun] at hpreserves hprecedes
    cases result with
    | error x => exact h.unwritten (Operation.run_error hrun) hpreserves
    | ok outcome =>
      obtain ⟨previous, hstep⟩ := Operation.run_ok hrun
      have hstays : outcome.StaysIn after := .of_run routed hrun
      intro id
      obtain ⟨steps, hadvances, hsteps⟩ := h id
      have hearlier : ∀ o ∈ steps, o.record.id = id ∧ o.StaysIn after := by
        intro o ho
        obtain ⟨hid, hstays⟩ := hsteps o ho
        exact ⟨hid, hstays.later hprecedes hpreserves⟩
      rw [hstep.record?]
      by_cases hid : outcome.record.id = id
      · rw [if_pos hid]
        have htransition := hstep.transition
        rw [← hstep.previous_eq (named.fresh names), hid,
          ← routed.addressed.kind hstep.carries] at htransition
        refine ⟨steps ++ [outcome], .completed hadvances ?_ htransition, ?_⟩
        · intro e he
          rw [← hid] at he
          exact (Operation.run_onward names named hrun he).origin
        · intro o ho
          rcases List.mem_append.1 ho with hold | hnew
          · exact hearlier o hold
          · rw [List.mem_singleton.1 hnew]
            exact ⟨hid, hstays⟩
      · rw [if_neg hid]
        exact ⟨steps, hadvances, hearlier⟩

theorem Deed.perform_advanced (names : Function.Injective env.exchangeName)
    (named : before.Named env) {deed : Deed} (routed : deed.Routed) :
    before.Advanced (deed.perform env before) := by
  refine (Deed.perform_induction (P := fun w => w.Named env ∧ before.Advanced w) ?_ ?_
    ⟨named, .refl before⟩).2
  · rintro between after ⟨hnamed, hadvanced⟩ hrested
    exact ⟨hrested.named hnamed, hadvanced.unwritten hrested.toUnwritten hrested.preserves⟩
  · rintro between version operation does - ⟨hnamed, hadvanced⟩
    exact ⟨hnamed.step version operation, hadvanced.run names hnamed (does.routed routed)⟩

end Advanced

-- A message as it has been handed over by a deed, at the end of all that the deed has asked for: it
-- is the message of a step that has just been written, and goes to the connection of the record.
structure Handed (env : Environment) (deed : Deed) (after : World) (made : List Call) (m : Message)
    (c : Connection) (e : Exchange) (previous : Option State) : Prop where
  last : ∃ earlier, made = earlier ++
    [.saveMessage e.id .sender m, .put e, .publish ⟨e, previous⟩, .send m c]
  stored : after.stores.record? e.id = some e
  thread : m.threadId = e.threadId
  version : m.version = e.version
  transition : Transition e.role .sender m.kind previous e.state
  addressed : (∃ text, deed = .receive text (some c)) ∧ c.id = e.connectionId ∨
    ∃ n, after.journal.calls[n]? = some (.connection e.connectionId) ∧
      env.answer n (.connection e.connectionId) = .ok c

theorem Call.filter_isSend {made : List Call} (h : ∀ c ∈ made, c.isSend = false) :
    made.filter Call.isSend = [] := by
  rw [List.filter_eq_nil_iff]
  intro c hc
  rw [h c hc]
  exact Bool.false_ne_true

theorem Deed.perform_hands (env : Environment) (before : World) (deed : Deed) :
    let after := deed.perform env before
    ∃ made, after.journal.effects = before.journal.effects ++ made ∧
      (made.filter Call.isSend).length ≤ 1 ∧
      ∀ m c, .send m c ∈ made → ∃ e previous, Handed env deed after made m c e previous ∧
        Outcome.StaysIn ⟨m, e⟩ after := by
  intro after
  obtain ⟨given, hgiven, hdelivers⟩ := deed.perform_delivers env before
  cases hdelivers with
  | nothing quiet =>
    obtain ⟨made, hmade, hquiet⟩ := quiet.effects
    refine ⟨made, hmade, by rw [Call.filter_isSend hquiet]; exact Nat.zero_le 1, ?_⟩
    intro m c hsend
    cases hquiet _ hsend
  | @posted between done version operation outcome c quiet own ran stores sent addressed =>
    obtain ⟨made, hmade, hquiet⟩ := quiet.effects
    obtain ⟨previous, hstep⟩ := Operation.run_ok ran
    have hrouted : operation.Routed version := Operation.Routed.of_sends own
    have heffects := hstep.effects
    rw [own] at heffects
    refine ⟨made ++ [.saveMessage outcome.record.id .sender outcome.message, .put outcome.record,
      .publish ⟨outcome.record, previous⟩, .send outcome.message c], ?_, ?_, ?_⟩
    · rw [sent, heffects, hmade]
      simp
    · rw [List.filter_append, Call.filter_isSend hquiet]
      exact Nat.le_refl 1
    · intro m c' hsend
      have hsent : m = outcome.message ∧ c' = c := by
        rcases List.mem_append.1 hsend with hearlier | hlast
        · cases hquiet _ hearlier
        · simpa using hlast
      obtain ⟨rfl, rfl⟩ := hsent
      have hstays : outcome.StaysIn done := .of_run hrouted ran
      have htransition := hstep.transition
      rw [own, ← hrouted.addressed.kind hstep.carries] at htransition
      refine ⟨outcome.record, previous, ⟨⟨made, rfl⟩, ?_, hstep.thread, hstays.belongs.version,
        htransition, ?_⟩, ⟨hstays.belongs, hstays.rank, ?_, ?_⟩⟩
      · rw [stores, hstep.record?, if_pos rfl]
      · cases addressed with
        | given arrived hown => exact .inl ⟨hgiven _ arrived, hown⟩
        | lookedUp asked answered => exact .inr ⟨_, asked, answered⟩
      · rw [stores]
        exact hstays.record
      · rw [stores]
        exact hstays.message

namespace Environment

-- Whatever an agent has been through, a deed hands over one message at most, and only one that has
-- been stored with its record before. It can be read unchanged whatever comes after, and so can the
-- messages of all steps that the deed has completed, however the deed ends.
theorem live_delivers {env : Environment} (names : Function.Injective env.exchangeName)
    (shows : env.Shows) {first rest : List Deed} {deed : Deed}
    (routed : ∀ d ∈ first ++ deed :: rest, d.Routed) :
    let before := env.live World.empty first
    let after := deed.perform env before
    let late := env.live after rest
    (∃ made, after.journal.effects = before.journal.effects ++ made ∧
      (made.filter Call.isSend).length ≤ 1 ∧
      ∀ m c, .send m c ∈ made → ∃ e previous, Handed env deed after made m c e previous ∧
        late.stores.message? e.id m.type = some m.toJson ∧
        ∃ e', late.stores.record? e.id = some e' ∧ e.Onward e') ∧
      ∀ id, ∃ steps, Advances (before.stores.record? id) steps (after.stores.record? id) ∧
        ∀ o ∈ steps, o.record.id = id ∧
          Inquiry.Yields env late.stores (findMessage id o.message.kind) (· = some o.message) := by
  intro before after late
  obtain ⟨hfirst, hlater⟩ := List.forall_mem_append.1 routed
  obtain ⟨hdeed, hrest⟩ := List.forall_mem_cons.1 hlater
  have hbefore : before.Named env := (live_stays names (.empty env) hfirst).2.2
  have hafter : after.Named env := (deed.perform_stays names hbefore hdeed).2.2
  obtain ⟨hprecedes, hpreserves, -⟩ := live_stays names hafter hrest
  refine ⟨?_, ?_⟩
  · obtain ⟨made, hmade, honce, hsent⟩ := deed.perform_hands env before
    refine ⟨made, hmade, honce, ?_⟩
    intro m c hsend
    obtain ⟨e, previous, hhanded, hstays⟩ := hsent m c hsend
    have hlate := hstays.later hprecedes hpreserves
    exact ⟨e, previous, hhanded, hlate.message, hlate.record⟩
  · intro id
    obtain ⟨steps, hadvances, hsteps⟩ := deed.perform_advanced names hbefore hdeed id
    refine ⟨steps, hadvances, ?_⟩
    intro o ho
    obtain ⟨rfl, hstays⟩ := hsteps o ho
    exact ⟨rfl, (hstays.later hprecedes hpreserves).found shows⟩

-- The command that answers a proposal hands over the offer.
theorem live_delivers_offered :
    let env := Environment.steady 'a'
    let proposal := (Message.openingProposal "thread").toJson.text
    let before := env.live World.empty [.receive proposal (some (.complete "connection"))]
    let deed : Deed := .obey .v1 (.answerProposal "e" (some "definition") .blank none)
    ∃ made m c e previous, Handed env deed (deed.perform env before) made m c e previous := by
  intro env proposal before deed
  have hbefore : before.journal.effects.filter Call.isSend = [] := by decide +kernel
  have hafter : (deed.perform env before).journal.effects.filter Call.isSend ≠ [] := by
    decide +kernel
  have routed : ∀ d ∈ [.receive proposal (some (.complete "connection"))] ++ [deed], d.Routed := by
    intro d hd
    rcases List.mem_pair.1 hd with rfl | rfl <;> trivial
  obtain ⟨⟨made, hmade, -, hhanded⟩, -⟩ :=
    live_delivers (steady_fresh 'a') (steady_shows 'a') routed
  have hsends : (deed.perform env before).journal.effects.filter Call.isSend =
      before.journal.effects.filter Call.isSend ++ made.filter Call.isSend := by
    rw [← List.filter_append]
    exact congrArg (List.filter Call.isSend) hmade
  rw [hbefore, List.nil_append] at hsends
  obtain ⟨call, hcall⟩ := List.exists_mem_of_ne_nil _ (hsends ▸ hafter)
  obtain ⟨hmem, hsend⟩ := List.mem_filter.1 hcall
  cases call with
  | send m c =>
    obtain ⟨e, previous, handed, -⟩ := hhanded m c hmem
    exact ⟨made, m, c, e, previous, handed⟩
  | _ => cases hsend

end Environment

end CredentialIssuance
