import CredentialIssuance.Proofs.Atomicity
import CredentialIssuance.Proofs.Guards
import CredentialIssuance.Proofs.History
import CredentialIssuance.Proofs.Payload
import CredentialIssuance.Proofs.Proposal

namespace CredentialIssuance

-- Collaborators that never fail, stores that show what they hold, and machinery whose payloads can
-- be read.
structure Environment.Reliable (env : Environment) : Prop where
  answers : ∀ n call, ∃ a, env.answer n call = .ok a
  shows : env.Shows
  offers : ∀ n schema definition keyProof text,
    env.answer n (.createOffer schema definition keyProof) = .ok text → OfferPayload.NamedIn text
  credentials : ∀ n definition offer request claims revocation text,
    env.answer n (.createCredential definition offer request claims revocation) = .ok text →
      CredentialPayload.NamedIn text

theorem Environment.Reliable.never {env : Environment} (h : env.Reliable) :
    ∀ x, env.Causes x → False := by
  rintro _ ⟨n, call, text, hanswer, -⟩
  obtain ⟨a, ha⟩ := h.answers n call
  cases ha.symm.trans hanswer

-- The action succeeds, and what it gives and leaves behind is as told.
def Action.Gives {α : Type} (env : Environment) (world : World) (x : Action α)
    (Q : α → World → Prop) : Prop :=
  ∃ a after, x env world = (.ok a, after) ∧ Q a after

namespace Action.Gives

variable {α β : Type} {env : Environment} {world : World} {x : Action α} {f : α → Action β}
  {Q : α → World → Prop} {R : β → World → Prop}

theorem bind (hx : Gives env world x Q) (hf : ∀ a after, Q a after → Gives env after (f a) R) :
    Gives env world (x >>= f) R := by
  obtain ⟨a, between, hrun, ha⟩ := hx
  obtain ⟨b, after, hlater, hb⟩ := hf a between ha
  exact ⟨b, after, Action.bind_eq_ok_iff.2 ⟨a, between, hrun, hlater⟩, hb⟩

theorem imp {Q' : α → World → Prop} (hx : Gives env world x Q)
    (h : ∀ a after, Q a after → Q' a after) : Gives env world x Q' := by
  obtain ⟨a, after, hrun, ha⟩ := hx
  exact ⟨a, after, hrun, h a after ha⟩

end Action.Gives

-- An operation that is planned without fail is carried out.
theorem Operation.run_gives {env : Environment} {world : World} {version : Version}
    {operation : Operation} {Q : Change → Prop} (reliable : env.Reliable)
    (h : Inquiry.Ends env world.stores (operation.plan version) Q fun _ => False) :
    Action.Gives env world (operation.run version) fun o after =>
      ∃ c journal, operation.plan version env world.stores world.journal = (.ok c, journal) ∧ Q c ∧
        o.message = c.message ∧
        (∃ updated, o.record = { c.record with state := c.target, updatedAt := updated }) ∧
        Step env world after version operation o c.previous := by
  have hends := h world.journal
  cases hrun : operation.run version env world with
  | mk result after =>
    cases result with
    | error x =>
      exfalso
      rcases run_eq_error hrun with ⟨journal, hplan, -⟩ | ⟨c, journal, hplan, hcommit⟩
      · rw [hplan] at hends
        exact hends
      · exact reliable.never x ((plan_ok hplan).commit_error_caused reliable.shows hcommit)
    | ok o =>
      obtain ⟨c, journal, hplan, hmessage, hreaches, hstep⟩ := run_planned hrun
      rw [hplan] at hends
      exact ⟨o, after, hrun, c, journal, hplan, hends, hmessage, hreaches.eq, hstep⟩

-- Where a record has got to: what of it matters to the protocol, and the states it has been
-- through.
structure Place where
  version : Version
  role : Role
  thread : String
  connection : String
  attributes : List Attribute
  autoAccept : Option AutoAccept
  path : List State

structure Exchange.At (e : Exchange) (p : Place) : Prop where
  version : e.version = p.version
  role : e.role = p.role
  thread : e.threadId = p.thread
  connection : e.connectionId = p.connection
  attributes : e.attributes = p.attributes
  autoAccept : e.autoAccept = p.autoAccept
  state : p.path.getLast? = some e.state

-- The record is the only one on its thread, and all that has been announced since then is the
-- states that it has been through.
structure World.Stands (w : World) (since : List Event) (p : Place) (e : Exchange) : Prop where
  sole : w.stores.Sole e
  place : e.At p
  events : ∃ new, w.stores.events = since ++ new ∧ new.map Event.state = p.path ∧
    ∀ event ∈ new, event.exchange.id = e.id

-- A message that can be read again, for a thread and family.
structure Message.Sent (m : Message) (version : Version) (thread : String) (kind : Kind) : Prop where
  plain : m.Plain
  version : m.version = version
  kind : m.kind = kind
  thread : m.threadId = thread

section Step

variable {env : Environment} {before after : World} {version : Version} {operation : Operation}
  {o : Outcome} {previous : Option State} {since : List Event} {p : Place} {e : Exchange}

theorem Step.sole_of_unused (h : Step env before after version operation o previous)
    (unused : before.stores.Unused o.record.threadId) : after.stores.Sole o.record := by
  refine ⟨by rw [h.record?, if_pos rfl], fun other hother hthread => ?_⟩
  rw [h.records, Table.mem_put_iff] at hother
  rcases hother with rfl | ⟨hmem, -⟩
  · rfl
  · exact absurd hthread (unused other hmem)

theorem Step.sole (h : Step env before after version operation o previous)
    (sole : before.stores.Sole e) (hid : o.record.id = e.id)
    (hthread : o.record.threadId = e.threadId) : after.stores.Sole o.record := by
  refine ⟨by rw [h.record?, if_pos rfl], fun other hother hsame => ?_⟩
  rw [h.records, Table.mem_put_iff] at hother
  rcases hother with rfl | ⟨hmem, hne⟩
  · rfl
  · have hother := sole.alone other hmem (hsame.trans hthread)
    exact absurd (hother ▸ hid.symm) hne

-- A record that has been opened on an unused thread stands at its first state.
theorem Step.stands_opened (h : Step env before after version operation o none)
    (unused : before.stores.Unused p.thread) (hrecord : o.record = e) (place : e.At p)
    (path : p.path = [e.state]) : after.Stands before.stores.events p o.record := by
  subst hrecord
  exact {
    sole := h.sole_of_unused (place.thread ▸ unused)
    place := place
    events := ⟨_, h.events, by rw [path]; rfl, by simp⟩ }

-- A record that has been moved stands one state further.
theorem Step.stands_moved (h : Step env before after version operation o previous)
    (stands : before.Stands since p e) {e' : Exchange} (hrecord : o.record = e') (hid : e'.id = e.id)
    {q : Place} (place : e'.At q) (thread : q.thread = p.thread)
    (path : q.path = p.path ++ [e'.state]) : after.Stands since q o.record := by
  subst hrecord
  constructor
  case sole =>
    exact h.sole stands.sole hid (place.thread.trans (thread.trans stands.place.thread.symm))
  case place => exact place
  case events =>
    obtain ⟨new, hevents, hstates, hids⟩ := stands.events
    refine ⟨new ++ [⟨o.record, previous⟩], ?_, ?_, ?_⟩
    · rw [h.events, hevents, List.append_assoc]
    · rw [List.map_append, hstates, path]
      rfl
    · intro event hevent
      rcases List.mem_append.1 hevent with hearlier | hlast
      · rw [hids event hearlier, hid]
      · rw [List.mem_singleton.1 hlast]

-- The message of a step is stored for its record, and those of other kinds stay.
theorem Step.holds (h : Step env before after version operation o previous) {thread : String}
    {kind : Kind} {m : Message} (carried : o.message = m) (sent : m.Sent version thread kind) :
    after.stores.Holds o.record kind m := by
  subst carried
  refine ⟨o.message.toJson, ?_, Message.ofJson_toJson sent.plain⟩
  have htype : o.message.type = typeUri o.record.version kind := by
    rw [Message.type, sent.version, sent.kind, h.version]
  rw [Stores.message?, h.messages, Table.get?_put]
  exact congrArg (Option.map _) (if_pos (congrArg (Prod.mk o.record.id) htype))

theorem Step.holds_other (h : Step env before after version operation o previous) {thread : String}
    {kind kind' : Kind} {m : Message} (sent : o.message.Sent version thread kind')
    (hid : o.record.id = e.id) (hversion : e.version = version)
    (held : before.stores.Holds e kind m) (other : kind' ≠ kind) :
    after.stores.Holds o.record kind m := by
  obtain ⟨value, hvalue, hread⟩ := held
  refine ⟨value, ?_, hread⟩
  rw [Stores.message?, h.messages, Table.get?_put, hid, h.version, ← hversion, if_neg]
  · exact hvalue
  · intro hsame
    rw [← sent.kind] at other
    exact other (typeUri_inj (congrArg Prod.snd hsame)).2

end Step

-- What the other agent relies on in the messages that it is sent.

structure Message.Proposes (m : Message) (version : Version) (thread : String)
    (attributes : List Attribute) (definition : Option String) : Prop where
  sent : m.Sent version thread .propose
  attributes : version.attributes m = attributes
  definition : version.proposedDefinition m = .ok definition

structure Message.Offers (m : Message) (version : Version) (thread : String)
    (attributes : List Attribute) : Prop where
  sent : m.Sent version thread .offer
  preview : version.preview m = some attributes
  readable : ∃ payload, version.payload m .offer = .ok payload ∧
    ∃ terms, OfferPayload.ofText payload = .ok terms

structure Message.Requests (m : Message) (version : Version) (thread : String) : Prop where
  sent : m.Sent version thread .request
  readable : ∃ payload, version.payload m .request = .ok payload

structure Message.Issues (m : Message) (version : Version) (thread : String) : Prop where
  sent : m.Sent version thread .issue
  readable : ∃ payload, version.payload m .issue = .ok payload ∧
    ∃ credential, CredentialPayload.ofText payload = .ok credential

section Built

variable (version : Version) (header : Header) {thread : String}

theorem Message.Proposes.built {p : Proposal}
    (hthread : (version.propose header p).threadId = thread) :
    (version.propose header p).Proposes version thread p.attributes p.terms.definition where
  sent := ⟨version.propose_plain _ _, version.propose_version _ _, (version.propose_is _ _).1, hthread⟩
  attributes := version.attributes_propose _ _
  definition := version.proposedDefinition_propose _ _

variable {payload : String}

theorem Message.Offers.built {details : OfferDetails} (named : OfferPayload.NamedIn payload)
    (hthread : (version.offer header payload details).threadId = thread) :
    (version.offer header payload details).Offers version thread details.attributes where
  sent := by
    have hread := version.payload_offer header payload details
    exact ⟨version.offer_plain _ _ _, (Version.payload_eq_ok hread).1,
      (Version.payload_eq_ok hread).2, hthread⟩
  preview := version.preview_offer _ _ _
  readable := ⟨payload, version.payload_offer _ _ _, named.ofText⟩

theorem Message.Requests.built {offer : Message}
    (hthread : (version.request header payload offer).threadId = thread) :
    (version.request header payload offer).Requests version thread where
  sent := by
    have hread := version.payload_request header payload offer
    exact ⟨version.request_plain _ _ _, (Version.payload_eq_ok hread).1,
      (Version.payload_eq_ok hread).2, hthread⟩
  readable := ⟨payload, version.payload_request _ _ _⟩

theorem Message.Issues.built {comment : Option String} {offer : Message}
    (named : CredentialPayload.NamedIn payload)
    (hthread : (version.issue header payload comment offer).threadId = thread) :
    (version.issue header payload comment offer).Issues version thread where
  sent := by
    have hread := version.payload_issue header payload comment offer
    exact ⟨version.issue_plain _ _ _ _, (Version.payload_eq_ok hread).1,
      (Version.payload_eq_ok hread).2, hthread⟩
  readable := ⟨payload, version.payload_issue _ _ _ _, named.ofText⟩

end Built

section Steps

open CredentialIssuance.Action

theorem Stores.Sole.eq_of_answers {s : Stores} {e stored : Exchange} {role : Option Role}
    {connection : Option String} (sole : s.Sole e) (hstored : s.record? stored.id = some stored)
    (answers : stored.Answers e.threadId role connection) : stored = e :=
  sole.alone stored (Stores.record?_eq_some_iff.1 hstored).1 answers.1

theorem Stores.Holds.eq {s : Stores} {e : Exchange} {kind : Kind} {m m' : Message}
    (h : s.Holds e kind m) (h' : s.Holds e kind m') : m = m' := by
  obtain ⟨value, hvalue, hread⟩ := h
  obtain ⟨value', hvalue', hread'⟩ := h'
  cases hvalue.symm.trans hvalue'
  exact Except.ok.inj (hread.symm.trans hread')

theorem World.Stands.state_eq {w : World} {since : List Event} {p : Place} {e : Exchange}
    {state : State} (h : w.Stands since p e) (last : p.path.getLast? = some state) :
    e.state = state :=
  Option.some.inj (h.place.state.symm.trans last)

variable {env : Environment} {world : World} (reliable : env.Reliable) {version : Version}
  {since : List Event} {p : Place} {e : Exchange}

include reliable

-- The steps that open a record.

theorem Holder.propose_gives {connection : String} {proposal : Proposal}
    {autoAccept : Option AutoAccept}
    (unused : world.stores.Unused (env.threadName world.journal.threads)) :
    Gives env world ((Operation.propose connection proposal autoAccept).run version)
      fun o after =>
        after.Stands world.stores.events ⟨version, .holder, env.threadName world.journal.threads,
          connection, proposal.attributes, autoAccept, [.proposalSent]⟩ o.record ∧
        o.record.credentials = [] ∧
        o.message.Proposes version (env.threadName world.journal.threads) proposal.attributes
          proposal.terms.definition := by
  refine (Operation.run_gives reliable propose_ends).imp ?_
  rintro o after ⟨c, journal, hplan, -, hmessage, ⟨updated, hrecord⟩, hstep⟩
  obtain ⟨now, rfl, -⟩ := propose_ok hplan
  refine ⟨hstep.stands_opened unused hrecord ⟨rfl, rfl, rfl, rfl, rfl, rfl, rfl⟩ rfl,
    by rw [hrecord]; rfl, ?proposes⟩
  case proposes =>
    rw [hmessage]
    exact .built version _ (Message.threadId_opening (version.propose_is _ _).2)

theorem Issuer.offer_gives {connection : Option String} {definition : String}
    {details : OfferDetails} {autoAccept : Option AutoAccept}
    (unused : world.stores.Unused (env.threadName world.journal.threads)) :
    Gives env world ((Operation.offer connection definition details autoAccept).run version)
      fun o after =>
        after.Stands world.stores.events ⟨version, .issuer, env.threadName world.journal.threads,
          connection.getD env.config.connectionlessId, details.attributes, autoAccept,
          [.offerSent]⟩ o.record ∧
        after.stores.Holds o.record .offer o.message ∧
        o.message.Offers version (env.threadName world.journal.threads) details.attributes := by
  refine (Operation.run_gives reliable (offer_ends reliable.never reliable.offers)).imp ?_
  rintro o after ⟨c, journal, hplan, ⟨payload, hpayload, named⟩, hmessage, ⟨updated, hrecord⟩, hstep⟩
  obtain ⟨offered, now, rfl, -⟩ := offer_ok hplan
  cases (version.payload_offer _ offered details).symm.trans hpayload
  have hoffers : o.message.Offers version (env.threadName world.journal.threads)
      details.attributes := by
    rw [hmessage]
    exact .built version _ named (Message.threadId_opening (version.offer_is _ _ _).2)
  refine ⟨hstep.stands_opened unused hrecord ⟨rfl, rfl, rfl, rfl, rfl, rfl, rfl⟩ rfl,
    hstep.holds rfl hoffers.sent, hoffers⟩

-- The steps that move a record by a message of its own.

theorem Issuer.answerProposal_gives {definition : Option String} {details : OfferDetails}
    {autoAccept : Option AutoAccept} (stands : world.Stands since p e) (hrole : p.role = .issuer)
    (last : p.path.getLast? = some .proposalReceived) (named : e.definition.isSome) :
    let attributes := if details.attributes = [] then p.attributes else details.attributes
    Gives env world ((Operation.answerProposal e.id definition details autoAccept).run p.version)
      fun o after =>
        after.Stands since { p with
          attributes := attributes
          autoAccept := autoAccept.or p.autoAccept
          path := p.path ++ [.offerSent] } o.record ∧
        o.record.id = e.id ∧
        after.stores.Holds o.record .offer o.message ∧
        o.message.Offers p.version p.thread attributes := by
  intro attributes
  have hplace := stands.place
  have hstate := stands.state_eq last
  obtain ⟨offered, hoffered⟩ : ∃ offered, definition.or e.definition = some offered := by
    cases definition with
    | none => exact Option.isSome_iff_exists.1 named
    | some offered => exact ⟨offered, rfl⟩
  refine (Operation.run_gives reliable (answerProposal_ends reliable.never reliable.shows
    reliable.offers stands.sole.stored hplace.version (hplace.role.trans hrole) hstate
    hoffered)).imp ?_
  rintro o after ⟨c, journal, hplan, ⟨payload, hpayload, hmade⟩, hmessage, ⟨updated, hrecord⟩, hstep⟩
  obtain ⟨stored, _, payload', header, hstored, -, -, -, -, rfl⟩ := answerProposal_ok hplan
  cases hstored.symm.trans stands.sole.stored
  have hattributes : (if details.attributes = [] then e.attributes else details.attributes) =
      attributes := by rw [hplace.attributes]
  rw [hattributes] at hpayload hmessage hrecord
  cases (p.version.payload_offer _ payload' _).symm.trans hpayload
  have hid : o.record.id = e.id := by rw [hrecord]; rfl
  have hoffers : o.message.Offers p.version p.thread attributes := by
    rw [hmessage]
    exact .built p.version _ hmade
      ((Message.threadId_reply (p.version.offer_is _ _ _).2).trans hplace.thread)
  refine ⟨hstep.stands_moved stands hrecord rfl ?place rfl rfl, hid,
    hstep.holds rfl hoffers.sent, hoffers⟩
  case place =>
      exact ⟨hplace.version, hplace.role, hplace.thread, hplace.connection, rfl,
        congrArg (autoAccept.or ·) hplace.autoAccept, List.getLast?_concat⟩

theorem Holder.request_gives {did : Option String} {autoAccept : Option AutoAccept}
    {offer : Message} (stands : world.Stands since p e) (hrole : p.role = .holder)
    (last : p.path.getLast? = some .offerReceived) (held : world.stores.Holds e .offer offer)
    (offers : offer.Offers p.version p.thread p.attributes) :
    Gives env world ((Operation.request e.id did autoAccept).run p.version) fun o after =>
      after.Stands since { p with
        autoAccept := autoAccept.or p.autoAccept
        path := p.path ++ [.requestSent] } o.record ∧
      o.record.id = e.id ∧
      o.record.credentials = e.credentials ∧ o.record.requestMetadata.isSome ∧
      o.message.Requests p.version p.thread := by
  have hplace := stands.place
  have hstate := stands.state_eq last
  obtain ⟨payload, hpayload, terms, hterms⟩ := offers.readable
  refine (Operation.run_gives reliable (request_ends reliable.never reliable.shows
    stands.sole.stored hplace.version (hplace.role.trans hrole) hstate held hpayload hterms did
    autoAccept)).imp ?_
  rintro o after ⟨c, journal, hplan, -, hmessage, ⟨updated, hrecord⟩, hstep⟩
  obtain ⟨stored, read, _, _, header, answer, hstored, -, -, -, hread, -, -, rfl⟩ :=
    request_ok hplan
  cases hstored.symm.trans stands.sole.stored
  obtain rfl := hread.eq held
  have hid : o.record.id = e.id := by rw [hrecord]; rfl
  refine ⟨hstep.stands_moved stands hrecord rfl ?place rfl rfl, hid, ?_, ?_, ?requests⟩
  case place =>
    refine ⟨hplace.version, hplace.role, hplace.thread, hplace.connection, ?_,
      congrArg (autoAccept.or ·) hplace.autoAccept, List.getLast?_concat⟩
    show (p.version.preview read).getD e.attributes = p.attributes
    rw [offers.preview, Option.getD_some]
  case requests =>
    rw [hmessage]
    exact .built p.version _
      ((Message.threadId_reply (p.version.request_is _ _ _).2).trans hplace.thread)
  · rw [hrecord]
    rfl
  · rw [hrecord]
    rfl

theorem Issuer.issue_gives {comment : Option String} {autoAccept : Option AutoAccept}
    {offer request : Message} (stands : world.Stands since p e) (hrole : p.role = .issuer)
    (last : p.path.getLast? = some .requestReceived) (held : world.stores.Holds e .offer offer)
    (offers : offer.Offers p.version p.thread p.attributes)
    (heldRequest : world.stores.Holds e .request request)
    (requests : request.Requests p.version p.thread) :
    Gives env world ((Operation.issue e.id comment autoAccept).run p.version) fun o after =>
      after.Stands since { p with
        autoAccept := autoAccept.or p.autoAccept
        path := p.path ++ [.credentialIssued] } o.record ∧
      o.record.id = e.id ∧
      o.message.Issues p.version p.thread := by
  have hplace := stands.place
  have hstate := stands.state_eq last
  obtain ⟨payload, hpayload, terms, hterms⟩ := offers.readable
  obtain ⟨requested, hrequested⟩ := requests.readable
  refine (Operation.run_gives reliable (issue_ends reliable.never reliable.shows
    reliable.credentials stands.sole.stored hplace.version (hplace.role.trans hrole) hstate held
    heldRequest hpayload hrequested hterms comment autoAccept)).imp ?_
  rintro o after ⟨c, journal, hplan, ⟨credential, hcredential, hmade⟩, hmessage, ⟨updated, hrecord⟩,
    hstep⟩
  obtain ⟨stored, read, _, _, _, _, issued, header, hstored, -, -, -, -, -, -, -, -, rfl⟩ :=
    issue_ok hplan
  cases hstored.symm.trans stands.sole.stored
  cases (p.version.payload_issue _ issued _ read).symm.trans hcredential
  have hid : o.record.id = e.id := by rw [hrecord]; rfl
  refine ⟨hstep.stands_moved stands hrecord rfl ?place rfl rfl, hid, ?issues⟩
  case place =>
      exact ⟨hplace.version, hplace.role, hplace.thread, hplace.connection, hplace.attributes,
        congrArg (autoAccept.or ·) hplace.autoAccept, List.getLast?_concat⟩
  case issues =>
    rw [hmessage]
    exact .built p.version _ hmade
      ((Message.threadId_reply (p.version.issue_is _ _ _ _).2).trans hplace.thread)

theorem Holder.acknowledge_gives (stands : world.Stands since p e) (hrole : p.role = .holder)
    (last : p.path.getLast? = some .credentialReceived) :
    Gives env world ((Operation.acknowledge e.id).run p.version) fun o after =>
      after.Stands since { p with path := p.path ++ [.done] } o.record ∧
      o.record.id = e.id ∧
      o.record.credentials = e.credentials ∧ o.record.requestMetadata = e.requestMetadata ∧
      o.message.Sent p.version p.thread .ack := by
  have hplace := stands.place
  have hstate := stands.state_eq last
  refine (Operation.run_gives reliable (acknowledge_ends reliable.never reliable.shows
    stands.sole.stored hplace.version (hplace.role.trans hrole) hstate)).imp ?_
  rintro o after ⟨c, journal, hplan, -, hmessage, ⟨updated, hrecord⟩, hstep⟩
  obtain ⟨stored, header, hstored, -, -, -, rfl⟩ := acknowledge_ok hplan
  cases hstored.symm.trans stands.sole.stored
  have hid : o.record.id = e.id := by rw [hrecord]; rfl
  refine ⟨hstep.stands_moved stands hrecord rfl ?place rfl rfl, hid, by rw [hrecord]; rfl,
    by rw [hrecord]; rfl, ?sent⟩
  case place =>
      exact ⟨hplace.version, hplace.role, hplace.thread, hplace.connection, hplace.attributes,
        hplace.autoAccept, List.getLast?_concat⟩
  case sent =>
    rw [hmessage]
    exact ⟨nofun, rfl, rfl, hplace.thread⟩

-- The steps that a message of the other agent brings about, over a connection that is complete.

variable {m : Message} {connection : Connection} {thread : String} {attributes : List Attribute}

theorem Issuer.receiveProposal_gives {definition : Option String}
    (complete : connection.state = .complete)
    (proposes : m.Proposes version thread attributes definition)
    (unused : world.stores.Unused thread) :
    Gives env world ((Operation.receive .propose ⟨m, some connection⟩).run version) fun o after =>
      after.Stands world.stores.events
        ⟨version, .issuer, thread, connection.id, attributes, none, [.proposalReceived]⟩ o.record ∧
      o.record.definition = definition := by
  obtain ⟨⟨hplain, hversion, hkind, rfl⟩, rfl, hdefinition⟩ := proposes
  have hready : Inbound.ready ⟨m, some connection⟩ = .ok connection :=
    Inbound.ready_of_complete complete
  refine (Operation.run_gives reliable (receiveProposal_ends reliable.never hkind hversion hready
    hdefinition fun e he answers => unused e he answers.1)).imp ?_
  rintro o after ⟨c, journal, hplan, -, hmessage, ⟨updated, hrecord⟩, hstep⟩
  obtain ⟨-, -, line, proposed, now, hline, hproposed, -, rfl, -⟩ := receiveProposal_ok hplan
  cases hline.symm.trans hready
  cases hproposed.symm.trans hdefinition
  refine ⟨hstep.stands_opened unused hrecord ⟨rfl, rfl, rfl, rfl, rfl, rfl, rfl⟩ rfl,
    by rw [hrecord]; rfl⟩

theorem Holder.receiveOffer_gives (complete : connection.state = .complete)
    (offers : m.Offers version thread attributes) (unused : world.stores.Unused thread) :
    Gives env world ((Operation.receive .offer ⟨m, some connection⟩).run version) fun o after =>
      after.Stands world.stores.events
        ⟨version, .holder, thread, connection.id, attributes, none, [.offerReceived]⟩ o.record ∧
      o.record.credentials = [] ∧
      after.stores.Holds o.record .offer m := by
  obtain ⟨sent, hpreview, payload, hpayload, terms, hterms⟩ := offers
  obtain rfl := sent.thread
  have hready : Inbound.ready ⟨m, some connection⟩ = .ok connection :=
    Inbound.ready_of_complete complete
  refine (Operation.run_gives reliable (receiveOffer_ends reliable.never hpayload hterms hready
    unused)).imp ?_
  rintro o after ⟨c, journal, hplan, -, hmessage, ⟨updated, hrecord⟩, hstep⟩
  have hattributes : version.attributes m = attributes := by
    rw [Version.attributes, hpreview, Option.getD_some]
  obtain ⟨_, _, -, -, ⟨stored, hstored, hanswers, -, -, -⟩ | ⟨line, now, hline, -, rfl, -⟩⟩ :=
    receiveOffer_ok hplan
  · exact absurd hanswers.1 (unused stored (Stores.record?_eq_some_iff.1 hstored).1)
  cases hline.symm.trans hready
  rw [hattributes] at hrecord
  refine ⟨hstep.stands_opened unused hrecord ⟨rfl, rfl, rfl, rfl, rfl, rfl, rfl⟩ rfl,
    by rw [hrecord]; rfl, hstep.holds hstep.carries sent⟩

theorem Holder.receiveAnswer_gives (stands : world.Stands since p e) (hrole : p.role = .holder)
    (last : p.path.getLast? = some .proposalSent) (hconnection : p.connection = connection.id)
    (offers : m.Offers p.version p.thread attributes) :
    Gives env world ((Operation.receive .offer ⟨m, some connection⟩).run p.version) fun o after =>
      after.Stands since { p with
        attributes := attributes
        path := p.path ++ [.offerReceived] } o.record ∧
      o.record.credentials = e.credentials ∧
      after.stores.Holds o.record .offer m := by
  have hplace := stands.place
  have hstate := stands.state_eq last
  obtain ⟨sent, hpreview, payload, hpayload, terms, hterms⟩ := offers
  have hthread : m.threadId = e.threadId := sent.thread.trans hplace.thread.symm
  have hline : Inbound.connectionId ⟨m, some connection⟩ = some e.connectionId := by
    rw [hplace.connection, hconnection]
    rfl
  refine (Operation.run_gives reliable (receiveAnswer_ends reliable.never hpayload hterms stands.sole
    hthread hline hplace.version (hplace.role.trans hrole) hstate)).imp ?_
  rintro o after ⟨c, journal, hplan, -, -, ⟨updated, hrecord⟩, hstep⟩
  have hattributes : p.version.attributes m = attributes := by
    rw [Version.attributes, hpreview, Option.getD_some]
  obtain ⟨_, _, -, -, ⟨stored, hstored, hanswers, -, -, rfl⟩ | ⟨_, _, -, hnone, -, -⟩⟩ :=
    receiveOffer_ok hplan
  · obtain rfl := stands.sole.eq_of_answers hstored (hthread ▸ hanswers)
    rw [hattributes] at hrecord
    refine ⟨hstep.stands_moved stands hrecord rfl ?place rfl rfl, by rw [hrecord]; rfl,
      hstep.holds hstep.carries sent⟩
    case place =>
        exact ⟨hplace.version, hplace.role, hplace.thread, hplace.connection, rfl,
          hplace.autoAccept, List.getLast?_concat⟩
  · refine absurd ⟨hthread.symm, ?_, ?_⟩ (hnone e (Stores.record?_eq_some_iff.1 stands.sole.stored).1)
    · simpa using hplace.role.trans hrole
    · intro c hc
      exact Option.some.inj (hline.symm.trans hc)

theorem Issuer.receiveRequest_gives {offer : Message} (complete : connection.state = .complete)
    (stands : world.Stands since p e) (hrole : p.role = .issuer)
    (last : p.path.getLast? = some .offerSent)
    (hconnection : p.connection = connection.id ∨ p.connection = env.config.connectionlessId)
    (held : world.stores.Holds e .offer offer) (requests : m.Requests p.version p.thread) :
    Gives env world ((Operation.receive .request ⟨m, some connection⟩).run p.version) fun o after =>
      after.Stands since { p with
        connection := connection.id
        path := p.path ++ [.requestReceived] } o.record ∧
      o.record.id = e.id ∧
      after.stores.Holds o.record .offer offer ∧ after.stores.Holds o.record .request m := by
  have hplace := stands.place
  have hstate := stands.state_eq last
  obtain ⟨sent, payload, hpayload⟩ := requests
  have hthread : m.threadId = e.threadId := sent.thread.trans hplace.thread.symm
  have hready : Inbound.ready ⟨m, some connection⟩ = .ok connection :=
    Inbound.ready_of_complete complete
  rw [← hplace.connection] at hconnection
  refine (Operation.run_gives reliable (receiveRequest_ends reliable.never stands.sole hthread
    hpayload hready hconnection hplace.version (hplace.role.trans hrole) hstate)).imp ?_
  rintro o after ⟨c, journal, hplan, -, -, ⟨updated, hrecord⟩, hstep⟩
  obtain ⟨_, line, -, hline, ⟨stored, hstored, hanswers, -, -, -, rfl⟩ | ⟨_, hnone, -, -⟩⟩ :=
    receiveRequest_ok hplan
  · cases hline.symm.trans hready
    obtain rfl := stands.sole.eq_of_answers hstored (hthread ▸ hanswers)
    have hid : o.record.id = stored.id := by rw [hrecord]; rfl
    have hsent : o.message.Sent p.version p.thread .request := by
      rw [show o.message = m from hstep.carries]
      exact sent
    refine ⟨hstep.stands_moved stands hrecord rfl ?place rfl rfl, hid,
      hstep.holds_other hsent hid hplace.version held (by decide), hstep.holds hstep.carries sent⟩
    case place =>
        exact ⟨hplace.version, hplace.role, hplace.thread, rfl, hplace.attributes,
          hplace.autoAccept, List.getLast?_concat⟩
  · exact absurd (Exchange.answers_of_role hthread.symm (hplace.role.trans hrole))
      (hnone e (Stores.record?_eq_some_iff.1 stands.sole.stored).1)

theorem Holder.receiveCredential_gives (stands : world.Stands since p e) (hrole : p.role = .holder)
    (last : p.path.getLast? = some .requestSent) (hconnection : p.connection = connection.id)
    (requested : e.requestMetadata.isSome) (issues : m.Issues p.version p.thread) :
    Gives env world ((Operation.receive .issue ⟨m, some connection⟩).run p.version) fun o after =>
      after.Stands since { p with path := p.path ++ [.credentialReceived] } o.record ∧
      o.record.id = e.id ∧
      o.record.requestMetadata = e.requestMetadata ∧
      o.record.credentials.length = e.credentials.length + 1 := by
  have hplace := stands.place
  have hstate := stands.state_eq last
  obtain ⟨sent, payload, hpayload, credential, hcredential⟩ := issues
  obtain ⟨metadata, hmetadata⟩ := Option.isSome_iff_exists.1 requested
  have hthread : m.threadId = e.threadId := sent.thread.trans hplace.thread.symm
  have hline : Inbound.connectionId ⟨m, some connection⟩ = some e.connectionId := by
    rw [hplace.connection, hconnection]
    rfl
  refine (Operation.run_gives reliable (receiveCredential_ends reliable.never stands.sole hthread
    hpayload hcredential hline hplace.version (hplace.role.trans hrole) hstate hmetadata)).imp ?_
  rintro o after ⟨c, journal, hplan, -, -, ⟨updated, hrecord⟩, hstep⟩
  obtain ⟨stored, _, _, _, id, hstored, -, -, hanswers, -, -, -, rfl⟩ := receiveCredential_ok hplan
  obtain rfl := stands.sole.eq_of_answers hstored (hthread ▸ hanswers)
  have hid : o.record.id = stored.id := by rw [hrecord]; rfl
  refine ⟨hstep.stands_moved stands hrecord rfl ?place rfl rfl, hid, by rw [hrecord]; rfl, ?_⟩
  case place =>
      exact ⟨hplace.version, hplace.role, hplace.thread, hplace.connection, hplace.attributes,
        hplace.autoAccept, List.getLast?_concat⟩
  · rw [hrecord]
    exact List.length_append

theorem Issuer.receiveAck_gives (stands : world.Stands since p e) (hrole : p.role = .issuer)
    (last : p.path.getLast? = some .credentialIssued) (hconnection : p.connection = connection.id)
    (sent : m.Sent p.version p.thread .ack) :
    Gives env world ((Operation.receive .ack ⟨m, some connection⟩).run p.version) fun o after =>
      after.Stands since { p with path := p.path ++ [.done] } o.record := by
  have hplace := stands.place
  have hstate := stands.state_eq last
  have hthread : m.threadId = e.threadId := sent.thread.trans hplace.thread.symm
  have hline : Inbound.connectionId ⟨m, some connection⟩ = some e.connectionId := by
    rw [hplace.connection, hconnection]
    rfl
  refine (Operation.run_gives reliable (receiveAck_ends reliable.never stands.sole hthread
    sent.kind sent.version hline hplace.version (hplace.role.trans hrole) hstate)).imp ?_
  rintro o after ⟨c, journal, hplan, -, -, ⟨updated, hrecord⟩, hstep⟩
  obtain ⟨-, -, stored, hstored, hanswers, -, -, rfl⟩ := receiveAck_ok hplan
  obtain rfl := stands.sole.eq_of_answers hstored (hthread ▸ hanswers)
  refine hstep.stands_moved stands hrecord rfl ?place rfl rfl
  case place =>
      exact ⟨hplace.version, hplace.role, hplace.thread, hplace.connection, hplace.attributes,
        hplace.autoAccept, List.getLast?_concat⟩

end Steps

end CredentialIssuance
