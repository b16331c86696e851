import CredentialIssuance.Proofs.Atomicity
import CredentialIssuance.Proofs.Guards
import CredentialIssuance.Proofs.Life

namespace CredentialIssuance

-- The messages without which no record is in the state.
def State.backing : State → List Kind
  | .proposalSent | .proposalReceived => [.propose]
  | .offerSent | .offerReceived => [.offer]
  | .requestSent => [.offer, .request]
  | .requestReceived => [.request]
  | .credentialIssued | .credentialReceived => [.offer, .request, .issue]
  | .done => [.offer, .request, .issue, .ack]
  | .declined => [.problemReport]

-- The kinds that carry a payload for the other party's machinery.
def Kind.hasPayload : Kind → Bool
  | .offer | .request | .issue => true
  | .propose | .ack | .problemReport => false

structure Message.BelongsTo (m : Message) (e : Exchange) : Prop where
  plain : m.Plain
  version : m.version = e.version
  thread : m.threadId = e.threadId
  payload : m.kind.hasPayload = true → ∃ payload, e.version.payload m m.kind = .ok payload
  -- A holder takes in an offer only if it can read what is offered.
  terms : e.role = .holder → ∀ payload, e.version.payload m .offer = .ok payload →
    ∃ terms, OfferPayload.ofText payload = .ok terms

namespace Message.BelongsTo

variable {m : Message} {e e' : Exchange}

theorem congr (h : m.BelongsTo e) (version : e'.version = e.version)
    (thread : e'.threadId = e.threadId) (role : e'.role = e.role) : m.BelongsTo e' where
  plain := h.plain
  version := h.version.trans version.symm
  thread := h.thread.trans thread.symm
  payload := by
    rw [version]
    exact h.payload
  terms := by
    rw [version, role]
    exact h.terms

section Build

variable {version : Version} {kind : Kind} (hversion : e.version = version)
  (hthread : m.threadId = e.threadId) (hplain : m.Plain)

-- A message of a kind without a payload.
include hversion hthread hplain in
theorem bare (hm : m.version = version) (hkind : m.kind.hasPayload = false) : m.BelongsTo e where
  plain := hplain
  version := hm.trans hversion.symm
  thread := hthread
  payload := fun h => by cases hkind.symm.trans h
  terms := by
    intro _ payload h
    rw [(Version.payload_eq_ok h).2] at hkind
    cases hkind

-- A message with a payload, which fixes its kind and family.
include hversion hthread hplain in
theorem carrying {payload : String} (h : version.payload m kind = .ok payload)
    (hterms : e.role = .holder → kind = .offer →
      ∃ terms, OfferPayload.ofText payload = .ok terms) : m.BelongsTo e := by
  subst hversion
  obtain ⟨hm, rfl⟩ := Version.payload_eq_ok h
  refine ⟨hplain, hm, hthread, fun _ => ⟨payload, h⟩, ?_⟩
  intro hrole read hread
  have hoffer := (Version.payload_eq_ok hread).2
  rw [← hoffer, h] at hread
  cases hread
  exact hterms hrole hoffer

end Build

end Message.BelongsTo

-- A message that an operation is about to save belongs to the record it is saved for.
theorem Operation.plan_belongs {env : Environment} {stores : Stores} {journal after : Journal}
    {version : Version} {operation : Operation} {c : Change} (routed : operation.Routed version)
    (h : operation.plan version env stores journal = (.ok c, after)) :
    c.message.BelongsTo c.record := by
  have hversion := (plan_ok h).version
  have hthread := (plan_ok h).thread
  cases operation with
  | propose connection proposal autoAccept =>
    obtain ⟨now, rfl, -⟩ := Holder.propose_ok h
    have hkind := (version.propose_is (.opening (env.threadName journal.threads)) proposal).1
    exact .bare hversion hthread (version.propose_plain _ _) (version.propose_version _ _)
      (congrArg Kind.hasPayload hkind)
  | offer connection definition details autoAccept =>
    obtain ⟨payload, now, rfl, -⟩ := Issuer.offer_ok h
    exact .carrying hversion hthread (version.offer_plain _ _ _) (version.payload_offer _ _ _) nofun
  | answerProposal exchange definition details autoAccept =>
    obtain ⟨stored, _, _, _, -, -, hrole, -, -, rfl⟩ := Issuer.answerProposal_ok h
    refine .carrying hversion hthread (version.offer_plain _ _ _) (version.payload_offer _ _ _) ?_
    intro hholder
    cases hrole.symm.trans hholder
  | request exchange did autoAccept =>
    obtain ⟨stored, _, _, _, _, _, -, -, -, -, -, -, -, rfl⟩ := Holder.request_ok h
    exact .carrying hversion hthread (version.request_plain _ _ _) (version.payload_request _ _ _)
      nofun
  | issue exchange comment autoAccept =>
    obtain ⟨stored, _, _, _, _, _, _, _, -, -, -, -, -, -, -, -, -, rfl⟩ := Issuer.issue_ok h
    exact .carrying hversion hthread (version.issue_plain _ _ _ _) (version.payload_issue _ _ _ _)
      nofun
  | acknowledge exchange =>
    obtain ⟨stored, _, -, -, -, -, rfl⟩ := Holder.acknowledge_ok h
    exact .bare hversion hthread nofun rfl rfl
  | decline exchange reason =>
    obtain ⟨stored, _, -, -, -, -, rfl⟩ := Holder.decline_ok h
    exact .bare hversion hthread nofun rfl rfl
  | receive kind inbound =>
    obtain ⟨hkind, hm, text, hdecode⟩ := routed
    have hplain := Message.decode_plain hdecode
    cases kind with
    | propose =>
      obtain ⟨-, -, _, _, _, -, -, -, rfl, -⟩ := Issuer.receiveProposal_ok h
      exact .bare hversion hthread hplain hm (congrArg Kind.hasPayload hkind)
    | offer =>
      obtain ⟨payload, offer, hpayload, hoffer, ⟨stored, -, -, -, -, rfl⟩ | ⟨_, _, -, -, rfl, -⟩⟩ :=
        Holder.receiveOffer_ok h
      · exact .carrying hversion hthread hplain hpayload fun _ _ => ⟨offer, hoffer⟩
      · exact .carrying hversion hthread hplain hpayload fun _ _ => ⟨offer, hoffer⟩
    | request =>
      obtain ⟨payload, _, hpayload, -, ⟨stored, -, -, -, -, -, rfl⟩ | ⟨_, -, rfl, -⟩⟩ :=
        Issuer.receiveRequest_ok h
      · exact .carrying hversion hthread hplain hpayload nofun
      · exact .carrying hversion hthread hplain hpayload nofun
    | issue =>
      obtain ⟨stored, payload, _, _, _, -, hpayload, -, -, -, -, -, rfl⟩ :=
        Holder.receiveCredential_ok h
      exact .carrying hversion hthread hplain hpayload nofun
    | ack =>
      obtain ⟨-, -, stored, -, -, -, -, rfl⟩ := Issuer.receiveAck_ok h
      exact .bare hversion hthread hplain hm (congrArg Kind.hasPayload hkind)
    | problemReport =>
      obtain ⟨stored, -, -, -, -, -, rfl⟩ := receiveReport_ok h
      exact .bare hversion hthread hplain hm (congrArg Kind.hasPayload hkind)

-- A credential is issued on an offer that is stored.
theorem Operation.plan_offered {env : Environment} {stores : Stores} {journal after : Journal}
    {version : Version} {operation : Operation} {c : Change}
    (h : operation.plan version env stores journal = (.ok c, after)) (own : operation.party = .sender)
    (hkind : operation.kind = .issue) : ∃ m, stores.Holds c.record .offer m := by
  cases operation with
  | issue exchange comment autoAccept =>
    obtain ⟨stored, offer, _, _, _, _, _, _, -, -, -, -, hoffer, -, -, -, -, rfl⟩ := Issuer.issue_ok h
    exact ⟨offer, hoffer⟩
  | receive kind inbound => cases own
  | _ => cases hkind

-- The step into a state brings the message that the state before was still without. Only the issuer
-- of a credential looks after a message of an earlier step.
theorem Transition.mem_backing {role : Role} {party : Party} {kind : Kind} {previous : Option State}
    {next : State} (h : Transition role party kind previous next) :
    ∀ k ∈ next.backing, k = kind ∨ (∃ state ∈ previous, k ∈ state.backing) ∨
      party = .sender ∧ kind = .issue ∧ k = .offer := by
  cases h <;> simp [State.backing]

-- Where the identifier of a record comes from that an operation is about to write.
inductive Exchange.Origin (env : Environment) (before : World) (after : Journal) (r : Exchange) :
    Prop where
  | drawn (id : r.id = env.exchangeName before.journal.exchanges)
      (count : before.journal.exchanges < after.exchanges)
  | stored {old : Exchange} (found : before.stores.record? r.id = some old) (same : old.SameOrigin r)

theorem Opens.origin {env : Environment} {before : World} {after : Journal} {operation : Operation}
    {r : Exchange} (h : Opens env before.stores before.journal after operation r) :
    r.Origin env before after := by
  have hdrawn := h.drawn
  exact .drawn h.id (by omega)

theorem Planned.origin {env : Environment} {before : World} {after : Journal} {version : Version}
    {operation : Operation} {c : Change}
    (h : Planned env before.stores before.journal after version operation c) :
    c.record.Origin env before after := by
  cases hnext : c.next with
  | none => exact (h.opens hnext).origin
  | some next =>
    obtain ⟨old, hold, hsame, -⟩ := (h.moves next hnext).stored
    exact .stored hold hsame

theorem Step.origin {env : Environment} {before after : World} {version : Version}
    {operation : Operation} {outcome : Outcome} {previous : Option State}
    (h : Step env before after version operation outcome previous) :
    outcome.record.Origin env before after.journal := by
  cases hprevious : previous with
  | none => exact (h.opens hprevious).origin
  | some state =>
    obtain ⟨old, hold, hsame, -⟩ := h.moves state hprevious
    exact .stored hold hsame

-- What must be stored under the identifier of a record: messages that belong to it.
def StoredMessage.FiledFor (s : StoredMessage) (e : Exchange) : Prop :=
  ∃ m : Message, s.type = m.type ∧ s.value = m.toJson ∧ m.BelongsTo e

structure World.Backed (env : Environment) (w : World) : Prop where
  named : w.Named env
  drawn : ∀ s ∈ w.stores.messages.entries, ∃ n < w.journal.exchanges,
    s.exchange = env.exchangeName n
  filed : ∀ e ∈ w.stores.records.entries, ∀ s ∈ w.stores.messages.entries, s.exchange = e.id →
    s.FiledFor e
  backed : ∀ e ∈ w.stores.records.entries, ∀ kind ∈ e.state.backing,
    (w.stores.messages.get? (e.id, typeUri e.version kind)).isSome = true

section Origin

variable {env : Environment} {before : World} {after : Journal} {r : Exchange} {m : Message}

theorem Exchange.Origin.exists_drawn (h : r.Origin env before after) (named : before.Named env)
    (hcount : before.journal.exchanges ≤ after.exchanges) :
    ∃ n < after.exchanges, r.id = env.exchangeName n := by
  cases h with
  | drawn id count => exact ⟨_, count, id⟩
  | stored found same =>
    obtain ⟨hmem, hid⟩ := Stores.record?_eq_some_iff.1 found
    obtain ⟨n, hlt, hname⟩ := named _ hmem
    exact ⟨n, by omega, hid.symm.trans hname⟩

-- A message of the record belongs to whatever is stored under the identifier of the record.
theorem Exchange.Origin.belongs (h : r.Origin env before after)
    (names : Function.Injective env.exchangeName) (named : before.Named env) (hm : m.BelongsTo r) :
    ∀ e ∈ before.stores.records.entries, e.id = r.id → m.BelongsTo e := by
  intro e he hid
  have hstored := Stores.record?_eq_some_iff.2 ⟨he, hid⟩
  cases h with
  | drawn id count =>
    rw [id, named.fresh names] at hstored
    cases hstored
  | stored found same =>
    cases found.symm.trans hstored
    exact hm.congr same.version.symm same.threadId.symm same.role.symm

-- And whatever has been stored under the identifier of the record belongs to the record.
theorem Exchange.Origin.filed (h : r.Origin env before after)
    (names : Function.Injective env.exchangeName) (hbacked : before.Backed env) :
    ∀ s ∈ before.stores.messages.entries, s.exchange = r.id → s.FiledFor r := by
  intro s hs hid
  cases h with
  | drawn id count =>
    obtain ⟨n, hlt, hname⟩ := hbacked.drawn s hs
    have hsame : n = before.journal.exchanges := names (hname.symm.trans (hid.trans id))
    omega
  | stored found same =>
    obtain ⟨hmem, hold⟩ := Stores.record?_eq_some_iff.1 found
    obtain ⟨m, htype, hvalue, hm⟩ := hbacked.filed _ hmem s hs (hid.trans hold.symm)
    exact ⟨m, htype, hvalue, hm.congr same.version same.threadId same.role⟩

end Origin

namespace World.Backed

variable {env : Environment} {before after : World}

theorem empty (env : Environment) : World.empty.Backed env where
  named := .empty env
  drawn := by
    intro s hs
    cases hs
  filed := by
    intro e he
    cases he
  backed := by
    intro e he
    cases he

-- Nothing but counters and calls has changed.
theorem mono (h : before.Backed env) (hrecords : after.stores.records = before.stores.records)
    (hmessages : after.stores.messages = before.stores.messages)
    (hcount : before.journal.exchanges ≤ after.journal.exchanges) : after.Backed env where
  named := by
    intro e he
    rw [hrecords] at he
    obtain ⟨n, hlt, hname⟩ := h.named e he
    exact ⟨n, by omega, hname⟩
  drawn := by
    intro s hs
    rw [hmessages] at hs
    obtain ⟨n, hlt, hname⟩ := h.drawn s hs
    exact ⟨n, by omega, hname⟩
  filed := by
    rw [hrecords, hmessages]
    exact h.filed
  backed := by
    rw [hrecords, hmessages]
    exact h.backed

-- A message is saved that belongs to any record it is saved for.
theorem save (h : before.Backed env) {s : StoredMessage}
    (hrecords : after.stores.records = before.stores.records)
    (hmessages : after.stores.messages = before.stores.messages.put s)
    (hcount : before.journal.exchanges ≤ after.journal.exchanges)
    (hdrawn : ∃ n < after.journal.exchanges, s.exchange = env.exchangeName n)
    (hfiled : ∀ e ∈ before.stores.records.entries, e.id = s.exchange → s.FiledFor e) :
    after.Backed env where
  named := by
    intro e he
    rw [hrecords] at he
    obtain ⟨n, hlt, hname⟩ := h.named e he
    exact ⟨n, by omega, hname⟩
  drawn := by
    intro s' hs'
    rw [hmessages, Table.mem_put_iff] at hs'
    rcases hs' with rfl | ⟨hmem, -⟩
    · exact hdrawn
    · obtain ⟨n, hlt, hname⟩ := h.drawn s' hmem
      exact ⟨n, by omega, hname⟩
  filed := by
    intro e he s' hs' hid
    rw [hrecords] at he
    rw [hmessages, Table.mem_put_iff] at hs'
    rcases hs' with rfl | ⟨hmem, -⟩
    · exact hfiled e he hid.symm
    · exact h.filed e he s' hmem hid
  backed := by
    intro e he kind hkind
    rw [hrecords] at he
    rw [hmessages, Table.get?_put]
    split
    · rfl
    · exact h.backed e he kind hkind

-- A record is written whose messages are there.
theorem write (h : before.Backed env) {r : Exchange}
    (hrecords : after.stores.records = before.stores.records.put r)
    (hmessages : after.stores.messages = before.stores.messages)
    (hcount : before.journal.exchanges ≤ after.journal.exchanges)
    (hdrawn : ∃ n < after.journal.exchanges, r.id = env.exchangeName n)
    (hfiled : ∀ s ∈ before.stores.messages.entries, s.exchange = r.id → s.FiledFor r)
    (hbacked : ∀ kind ∈ r.state.backing,
      (before.stores.messages.get? (r.id, typeUri r.version kind)).isSome = true) :
    after.Backed env where
  named := by
    intro e he
    rw [hrecords, Table.mem_put_iff] at he
    rcases he with rfl | ⟨hmem, -⟩
    · exact hdrawn
    · obtain ⟨n, hlt, hname⟩ := h.named e hmem
      exact ⟨n, by omega, hname⟩
  drawn := by
    intro s hs
    rw [hmessages] at hs
    obtain ⟨n, hlt, hname⟩ := h.drawn s hs
    exact ⟨n, by omega, hname⟩
  filed := by
    intro e he s hs hid
    rw [hrecords, Table.mem_put_iff] at he
    rw [hmessages] at hs
    rcases he with rfl | ⟨hmem, -⟩
    · exact hfiled s hs hid
    · exact h.filed e hmem s hs hid
  backed := by
    intro e he kind hkind
    rw [hrecords, Table.mem_put_iff] at he
    rw [hmessages]
    rcases he with rfl | ⟨hmem, -⟩
    · exact hbacked kind hkind
    · exact h.backed e hmem kind hkind

-- An operation that fails may have saved its message.
theorem operation_error (h : before.Backed env) (names : Function.Injective env.exchangeName)
    {version : Version} {operation : Operation} {x : Error} (routed : operation.Routed version)
    (hrun : operation.run version env before = (.error x, after)) : after.Backed env := by
  rcases Operation.run_eq_error hrun with ⟨journal, hplan, rfl⟩ | ⟨c, journal, hplan, hcommit⟩
  · exact h.mono rfl rfl (Operation.plan_extends hplan).exchanges
  · have habandoned := Change.commit_error hcommit
    have hcount : before.journal.exchanges ≤ after.journal.exchanges := by
      rw [habandoned.exchanges]
      exact (Operation.plan_extends hplan).exchanges
    rcases habandoned.messages with hkept | hsaved
    · exact h.mono habandoned.records hkept hcount
    · have horigin := (Operation.plan_ok hplan).origin
      have hbelongs := Operation.plan_belongs routed hplan
      refine h.save habandoned.records hsaved hcount ?_ ?_
      · rw [habandoned.exchanges]
        exact horigin.exists_drawn h.named (Operation.plan_extends hplan).exchanges
      · intro e he hid
        exact ⟨c.message, rfl, rfl, horigin.belongs names h.named hbelongs e he hid⟩

-- The messages that back the record after a step: that of the step, and those that were there.
theorem step_backed (h : before.Backed env) {version : Version} {operation : Operation}
    {outcome : Outcome} {previous : Option State}
    (hstep : Step env before after version operation outcome previous)
    (hkind : outcome.message.type = typeUri outcome.record.version operation.kind)
    (offered : operation.party = .sender → operation.kind = .issue →
      (before.stores.messages.get?
        (outcome.record.id, typeUri outcome.record.version .offer)).isSome = true) :
    ∀ kind ∈ outcome.record.state.backing, (after.stores.messages.get?
      (outcome.record.id, typeUri outcome.record.version kind)).isSome = true := by
  intro kind hbacking
  rw [hstep.messages, Table.get?_put]
  split
  · rfl
  · next hother =>
    rcases hstep.transition.mem_backing kind hbacking with rfl | ⟨state, hprevious, hstate⟩ |
      ⟨own, hissue, rfl⟩
    · exact absurd (congrArg (Prod.mk outcome.record.id) hkind) hother
    · obtain ⟨old, hold, hsame, rfl, -⟩ := hstep.moves state hprevious
      obtain ⟨hmem, hid⟩ := Stores.record?_eq_some_iff.1 hold
      have hold := h.backed old hmem kind hstate
      rw [hid, ← hsame.version] at hold
      exact hold
    · exact offered own hissue

theorem operation_ok (h : before.Backed env) (names : Function.Injective env.exchangeName)
    {version : Version} {operation : Operation} {outcome : Outcome}
    (routed : operation.Routed version)
    (hrun : operation.run version env before = (.ok outcome, after)) : after.Backed env := by
  obtain ⟨c, journal, hplan, hmessage, hreaches, hstep⟩ := Operation.run_planned hrun
  obtain ⟨updated, hrecord⟩ := hreaches.eq
  have horigin := hstep.origin
  have hdrawn := horigin.exists_drawn h.named hstep.exchanges
  have hbelongs : outcome.message.BelongsTo outcome.record := by
    rw [hmessage, hrecord]
    exact (Operation.plan_belongs routed hplan).congr rfl rfl rfl
  have hkind : outcome.message.type = typeUri outcome.record.version operation.kind := by
    rw [Message.type, hbelongs.version, routed.addressed.kind hstep.carries]
  have hsaved : World.Backed env ⟨before.stores.putMessage ⟨outcome.record.id, outcome.message.type,
      some operation.party, outcome.message.toJson⟩, after.journal⟩ := by
    refine h.save rfl rfl hstep.exchanges hdrawn ?_
    intro e he hid
    exact ⟨outcome.message, rfl, rfl, horigin.belongs names h.named hbelongs e he hid⟩
  refine hsaved.write hstep.records hstep.messages (Nat.le_refl _) hdrawn ?_ ?_
  · intro s hs hid
    rcases (Table.mem_put_iff ..).1 hs with rfl | ⟨hmem, -⟩
    · exact ⟨outcome.message, rfl, rfl, hbelongs⟩
    · exact horigin.filed names h s hmem hid
  · have hbacked := h.step_backed hstep hkind fun own hissue => ?_
    · rw [hstep.messages] at hbacked
      exact hbacked
    · obtain ⟨offer, value, hvalue, -⟩ := Operation.plan_offered hplan own hissue
      obtain ⟨s, hs, -⟩ := Option.map_eq_some_iff.1 hvalue
      rw [hrecord, hs]
      rfl

theorem operation_run (h : before.Backed env) (names : Function.Injective env.exchangeName)
    {version : Version} {operation : Operation} (routed : operation.Routed version) :
    (operation.run version env before).2.Backed env := by
  cases hrun : operation.run version env before with
  | mk result after =>
    cases result with
    | error x => exact h.operation_error names routed hrun
    | ok outcome => exact h.operation_ok names routed hrun

theorem perform (h : before.Backed env) (names : Function.Injective env.exchangeName) {deed : Deed}
    (routed : deed.Routed) : (deed.perform env before).Backed env := by
  refine Deed.perform_induction ?_ ?_ h
  · intro between after hbetween hrested
    exact hbetween.mono hrested.records hrested.messages hrested.exchanges
  · intro between version operation does _ hbetween
    exact hbetween.operation_run names (does.routed routed)

theorem live {deeds : List Deed} (names : Function.Injective env.exchangeName)
    (routed : ∀ deed ∈ deeds, deed.Routed) : (env.live World.empty deeds).Backed env :=
  Environment.live_induction (fun _ deed hdeed h => h.perform names (routed deed hdeed)) (.empty env)

-- A message that backs a state is there to be read.
theorem exists_message {w : World} (h : w.Backed env) {e : Exchange} {kind : Kind}
    (he : e ∈ w.stores.records.entries) (hkind : kind ∈ e.state.backing) :
    ∃ m : Message, w.stores.message? e.id (typeUri e.version kind) = some m.toJson ∧ m.kind = kind ∧
      m.BelongsTo e := by
  obtain ⟨s, hs⟩ := Option.isSome_iff_exists.1 (h.backed e he kind hkind)
  obtain ⟨hmem, hkey⟩ := (w.stores.messages.get?_eq_some_iff ..).1 hs
  obtain ⟨hexchange, htype⟩ := Prod.mk.inj hkey
  obtain ⟨m, hm, hvalue, hbelongs⟩ := h.filed e he s hmem hexchange
  refine ⟨m, ?_, (typeUri_inj (hm.symm.trans htype)).2, hbelongs⟩
  rw [Stores.message?, hs, Option.map_some, hvalue]

end World.Backed

-- An offer that a holder has taken in can be accepted, unless a collaborator fails.
theorem Holder.request_yields {env : Environment} {s : Stores} (shows : env.Shows) {e : Exchange}
    {m : Message} (hstored : s.record? e.id = some e) (hrole : e.role = .holder)
    (hstate : e.state = .offerReceived) (hholds : s.Holds e .offer m) (hbelongs : m.BelongsTo e)
    (hkind : m.kind = .offer) (did : Option String) (autoAccept : Option AutoAccept) :
    Inquiry.Yields env s (Holder.request e.version e.id did autoAccept) fun _ => True := by
  obtain ⟨payload, hpayload⟩ := hbelongs.payload (by rw [hkind]; rfl)
  rw [hkind] at hpayload
  obtain ⟨terms, hterms⟩ := hbelongs.terms hrole payload hpayload
  exact request_ends (fun _ hcaused => hcaused.isExternal) shows hstored rfl hrole hstate hholds
    hpayload hterms did autoAccept

-- What is planned without fail can fail only at a collaborator when it is carried out.
theorem Operation.run_error_isExternal {env : Environment} {before : World} {version : Version}
    {operation : Operation} {x : Error} {Q : Change → Prop} (shows : env.Shows)
    (yields : Inquiry.Yields env before.stores (operation.plan version) Q)
    (h : (operation.run version env before).1 = .error x) : x.isExternal = true := by
  rcases run_eq_error (Prod.ext h rfl) with ⟨journal, hplan, -⟩ | ⟨c, journal, hplan, hcommit⟩
  · have hyield := yields before.journal
    rw [hplan] at hyield
    exact hyield
  · exact ((plan_ok hplan).commit_error_caused shows hcommit).isExternal

-- What can be done with the messages of an agent's records, whatever has been asked before.
structure World.Readable (env : Environment) (w : World) : Prop where
  -- Every message that has brought a record into its state is found, and gives back its payload.
  found : ∀ e ∈ w.stores.records.entries, ∀ kind ∈ e.state.backing, ∃ m : Message,
    w.stores.message? e.id (typeUri e.version kind) = some m.toJson ∧
      m.kind = kind ∧ m.version = e.version ∧ m.threadId = e.threadId ∧
      (kind.hasPayload = true → ∃ payload, e.version.payload m kind = .ok payload) ∧
      Inquiry.Yields env w.stores (findMessage e.id kind) (· = some m)
  -- So nothing but a collaborator keeps a holder from accepting an offer.
  acceptable : ∀ e ∈ w.stores.records.entries, e.role = .holder → e.state = .offerReceived →
    ∀ did autoAccept x,
      ((Operation.request e.id did autoAccept).run e.version env w).1 = .error x →
        x.isExternal = true

theorem World.Backed.readable {env : Environment} {w : World} (h : w.Backed env)
    (shows : env.Shows) : w.Readable env where
  found := by
    intro e he kind hkind
    have hstored := Stores.record?_eq_some_iff.2 ⟨he, rfl⟩
    obtain ⟨m, hm, rfl, hbelongs⟩ := h.exists_message he hkind
    have hholds : w.stores.Holds e m.kind m := ⟨_, hm, Message.ofJson_toJson hbelongs.plain⟩
    exact ⟨m, hm, rfl, hbelongs.version, hbelongs.thread, hbelongs.payload,
      findMessage_yields shows hstored hholds⟩
  acceptable := by
    intro e he hrole hstate did autoAccept x hrun
    have hstored := Stores.record?_eq_some_iff.2 ⟨he, rfl⟩
    have hkind : Kind.offer ∈ e.state.backing := by
      rw [hstate]
      exact .head _
    obtain ⟨m, hm, hoffer, hbelongs⟩ := h.exists_message he hkind
    have hholds : w.stores.Holds e .offer m := ⟨_, hm, Message.ofJson_toJson hbelongs.plain⟩
    have hyields := Holder.request_yields shows hstored hrole hstate hholds hbelongs hoffer did
      autoAccept
    exact Operation.run_error_isExternal shows hyields hrun

namespace Environment

-- Whatever an agent has been through, the messages of its records can be read.
theorem live_readable {env : Environment} {deeds : List Deed}
    (names : Function.Injective env.exchangeName) (shows : env.Shows)
    (routed : ∀ deed ∈ deeds, deed.Routed) : (env.live World.empty deeds).Readable env :=
  (World.Backed.live names routed).readable shows

-- The offer that answers a proposal can be read again.
theorem live_readable_offered :
    let env := Environment.steady 'a'
    let proposal := (Message.openingProposal "thread").toJson.text
    let deeds : List Deed :=
      [.receive proposal (some (.complete "connection")),
        .operate .v1 (.answerProposal "e" (some "definition") .blank none)]
    let world := env.live World.empty deeds
    ∃ e ∈ world.stores.records.entries, e.state = .offerSent ∧
      ∃ m, Inquiry.Yields env world.stores (findMessage e.id .offer) (· = some m) := by
  intro env proposal deeds world
  have hoffered : ∃ e ∈ world.stores.records.entries, e.state = .offerSent := by decide +kernel
  have routed : ∀ deed ∈ deeds, deed.Routed := by
    intro deed hdeed
    rcases List.mem_pair.1 hdeed with rfl | rfl <;> trivial
  have hreadable : world.Readable env :=
    live_readable (steady_fresh 'a') (steady_shows 'a') routed
  clear_value world
  obtain ⟨e, he, hstate⟩ := hoffered
  have hkind : Kind.offer ∈ e.state.backing := by
    rw [hstate]
    exact .head _
  obtain ⟨m, -, -, -, -, -, hfound⟩ := hreadable.found e he .offer hkind
  exact ⟨e, he, hstate, m, hfound⟩

end Environment

end CredentialIssuance
