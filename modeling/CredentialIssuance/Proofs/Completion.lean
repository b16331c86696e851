import CredentialIssuance.Proofs.Meeting
import CredentialIssuance.Proofs.Script

namespace CredentialIssuance

-- A record that an exchange has been completed with, and what has been announced of it since.
structure World.Completed (before after : World) (version : Version) (role : Role) (thread : String)
    (path : List State) (e : Exchange) : Prop where
  stored : after.stores.record? e.id = some e
  version : e.version = version
  role : e.role = role
  thread : e.threadId = thread
  done : e.state = .done
  published : ∃ new, after.stores.events = before.stores.events ++ new ∧
    new.map Event.state = path ∧ ∀ event ∈ new, event.exchange.id = e.id

-- How an exchange ends that has been opened between the two.
structure Couple.Completed (before after : Couple) (version : Version) (opening : Opening)
    (thread : String) (h i : Exchange) : Prop where
  holder : before.holder.Completed after.holder version .holder thread (opening.path .holder) h
  issuer : before.issuer.Completed after.issuer version .issuer thread (opening.path .issuer) i
  attributes : h.attributes = i.attributes
  metadata : h.requestMetadata.isSome
  bound : h.credentials.length = 1

-- The holder has nothing on the thread, or has asked for the offer.
inductive World.AwaitsOffer (w : World) (version : Version) (thread connection : String) :
    List Event → Option AutoAccept → List State → Prop where
  | unasked (unused : w.stores.Unused thread) :
      AwaitsOffer w version thread connection w.stores.events none []
  | asked {since : List Event} {attributes : List Attribute} {policy : Option AutoAccept}
      {e : Exchange}
      (stands : w.Stands since
        ⟨version, .holder, thread, connection, attributes, policy, [.proposalSent]⟩ e)
      (unbound : e.credentials = []) :
      AwaitsOffer w version thread connection since policy [.proposalSent]

-- The issuer has sent the offer, over the connection or over none.
structure World.AwaitsRequest (w : World) (env : Environment) (version : Version)
    (thread connection : String) (attributes : List Attribute) (since : List Event)
    (policy : Option AutoAccept) (path : List State) (e : Exchange) (offer : Message) : Prop where
  stands : ∃ line, w.Stands since ⟨version, .issuer, thread, line, attributes, policy, path⟩ e ∧
    (line = connection ∨ line = env.config.connectionlessId)
  sent : path.getLast? = some .offerSent
  held : w.stores.Holds e .offer offer
  offers : offer.Offers version thread attributes

-- The holder has sent the request.
structure World.AwaitsCredential (w : World) (version : Version) (thread connection : String)
    (attributes : List Attribute) (since : List Event) (policy : Option AutoAccept)
    (path : List State) (e : Exchange) : Prop where
  stands : w.Stands since ⟨version, .holder, thread, connection, attributes, policy, path⟩ e
  sent : path.getLast? = some .requestSent
  metadata : e.requestMetadata.isSome
  unbound : e.credentials = []

section Turns

open CredentialIssuance.Action

variable {env : Environment} {world : World} (reliable : env.Reliable) {version : Version}
  {thread : String} {connection : Connection} {attributes : List Attribute} {since : List Event}
  {policy : Option AutoAccept} {path : List State} {e : Exchange} {m offer : Message}

include reliable

theorem Holder.takes_offer (complete : connection.state = .complete)
    (awaits : world.AwaitsOffer version thread connection.id since policy path)
    (offers : m.Offers version thread attributes) :
    Gives env world ((Operation.receive .offer ⟨m, some connection⟩).run version) fun o after =>
      after.Stands since ⟨version, .holder, thread, connection.id, attributes, policy,
        path ++ [.offerReceived]⟩ o.record ∧
      o.record.credentials = [] ∧ after.stores.Holds o.record .offer m := by
  cases awaits with
  | unasked unused => exact receiveOffer_gives reliable complete offers unused
  | asked stands unbound =>
    refine (receiveAnswer_gives reliable stands rfl rfl rfl offers).imp ?_
    rintro o after ⟨hstands, hcredentials, hholds⟩
    exact ⟨hstands, hcredentials.trans unbound, hholds⟩

-- From the proposal to the offer.
theorem Issuer.proposal_turn (complete : connection.state = .complete)
    {definition : Option String} (named : definition.isSome)
    (proposes : m.Proposes version thread attributes definition)
    (unused : world.stores.Unused thread) :
    Gives env world ((Operation.receive .propose ⟨m, some connection⟩).run version)
      fun received between =>
        received.record.autoAccept = none ∧ received.record.definition.isSome ∧
        ∀ chosen details choice,
          Gives env between
            ((Operation.answerProposal received.record.id chosen details choice).run version)
            fun o after =>
              ∃ attributes, after.AwaitsRequest env version thread connection.id attributes
                world.stores.events choice [.proposalReceived, .offerSent] o.record o.message := by
  refine (receiveProposal_gives reliable complete proposes unused).imp ?_
  rintro received between ⟨hstands, hdefinition⟩
  have hnamed : received.record.definition.isSome := hdefinition ▸ named
  refine ⟨hstands.place.autoAccept, hnamed, fun chosen details choice => ?_⟩
  refine (answerProposal_gives reliable hstands rfl rfl hnamed).imp ?_
  rintro o after ⟨hanswered, -, hholds, hoffers⟩
  rw [Option.or_none] at hanswered
  exact ⟨_, ⟨_, hanswered, .inl rfl⟩, rfl, hholds, hoffers⟩

-- From the offer to the request.
theorem Holder.offer_turn (complete : connection.state = .complete)
    (awaits : world.AwaitsOffer version thread connection.id since policy path)
    (offers : m.Offers version thread attributes) :
    Gives env world ((Operation.receive .offer ⟨m, some connection⟩).run version)
      fun received between =>
        received.record.autoAccept = policy ∧ ∀ did choice,
          Gives env between ((Operation.request received.record.id did choice).run version)
            fun o after =>
              after.AwaitsCredential version thread connection.id attributes since
                (choice.or policy) (path ++ [.offerReceived, .requestSent]) o.record ∧
              o.message.Requests version thread := by
  refine (takes_offer reliable complete awaits offers).imp ?_
  rintro received between ⟨hstands, hcredentials, hholds⟩
  refine ⟨hstands.place.autoAccept, fun did choice => ?_⟩
  refine (request_gives reliable hstands rfl List.getLast?_concat hholds offers).imp ?_
  rintro o after ⟨hrequested, -, hkept, hmetadata, hrequests⟩
  rw [List.append_assoc] at hrequested
  exact ⟨⟨hrequested, List.getLast?_append_cons .., hmetadata, hkept.trans hcredentials⟩, hrequests⟩

-- From the request to the credential.
theorem Issuer.request_turn (complete : connection.state = .complete)
    (awaits : world.AwaitsRequest env version thread connection.id attributes since policy path e
      offer)
    (requests : m.Requests version thread) :
    Gives env world ((Operation.receive .request ⟨m, some connection⟩).run version)
      fun received between =>
        received.record.autoAccept = policy ∧ ∀ comment choice,
          Gives env between ((Operation.issue received.record.id comment choice).run version)
            fun o after =>
              after.Stands since ⟨version, .issuer, thread, connection.id, attributes,
                choice.or policy, path ++ [.requestReceived, .credentialIssued]⟩ o.record ∧
              o.message.Issues version thread := by
  obtain ⟨⟨line, hstands, hline⟩, hlast, hholds, hoffers⟩ := awaits
  refine (receiveRequest_gives reliable complete hstands rfl hlast hline hholds requests).imp ?_
  rintro received between ⟨hreceived, -, hoffer, hrequest⟩
  refine ⟨hreceived.place.autoAccept, fun comment choice => ?_⟩
  refine (issue_gives reliable hreceived rfl List.getLast?_concat hoffer hoffers hrequest
    requests).imp ?_
  rintro o after ⟨hissued, -, hissues⟩
  rw [List.append_assoc] at hissued
  exact ⟨hissued, hissues⟩

-- From the credential to the acknowledgement.
theorem Holder.credential_turn
    (awaits : world.AwaitsCredential version thread connection.id attributes since policy path e)
    (issues : m.Issues version thread) :
    Gives env world ((Operation.receive .issue ⟨m, some connection⟩).run version)
      fun received between =>
        received.record.autoAccept = policy ∧
        Gives env between ((Operation.acknowledge received.record.id).run version)
          fun o after =>
            after.Stands since ⟨version, .holder, thread, connection.id, attributes, policy,
              path ++ [.credentialReceived, .done]⟩ o.record ∧
            o.record.requestMetadata.isSome ∧ o.record.credentials.length = 1 ∧
            o.message.Sent version thread .ack := by
  obtain ⟨hstands, hlast, hmetadata, hunbound⟩ := awaits
  refine (receiveCredential_gives reliable hstands rfl hlast rfl hmetadata issues).imp ?_
  rintro received between ⟨hreceived, -, hsame, hcredentials⟩
  refine ⟨hreceived.place.autoAccept, ?_⟩
  refine (acknowledge_gives reliable hreceived rfl List.getLast?_concat).imp ?_
  rintro o after ⟨hdone, -, hkept, hmetadata', hsent⟩
  rw [List.append_assoc] at hdone
  refine ⟨hdone, ?_, ?_, hsent⟩
  · rw [hmetadata', hsame]
    exact hmetadata
  · rw [hkept, hcredentials, hunbound]
    rfl

end Turns

theorem World.Stands.completed {before after : World} {version : Version} {role : Role}
    {thread connection : String} {attributes : List Attribute} {policy : Option AutoAccept}
    {path : List State} {e : Exchange}
    (h : after.Stands before.stores.events
      ⟨version, role, thread, connection, attributes, policy, path⟩ e)
    (last : path.getLast? = some .done) : before.Completed after version role thread path e where
  stored := h.sole.stored
  version := h.place.version
  role := h.place.role
  thread := h.place.thread
  done := h.state_eq last
  published := h.events

-- Both records have gone the whole way of the opening, with the same attributes.
theorem Couple.Completed.of_stands {before after : Couple} {version : Version} {opening : Opening}
    {thread connectionH connectionI : String} {attributes : List Attribute}
    {policyH policyI : Option AutoAccept} {pathH pathI : List State} {h i : Exchange}
    (holder : after.holder.Stands before.holder.stores.events
      ⟨version, .holder, thread, connectionH, attributes, policyH, pathH⟩ h)
    (issuer : after.issuer.Stands before.issuer.stores.events
      ⟨version, .issuer, thread, connectionI, attributes, policyI, pathI⟩ i)
    (hpathH : opening.path .holder = pathH) (hpathI : opening.path .issuer = pathI)
    (metadata : h.requestMetadata.isSome) (bound : h.credentials.length = 1) :
    before.Completed after version opening thread h i := by
  subst hpathH hpathI
  exact {
    holder := holder.completed (by cases opening <;> rfl)
    issuer := issuer.completed (by cases opening <;> rfl)
    attributes := holder.place.attributes.trans issuer.place.attributes.symm
    metadata := metadata
    bound := bound }

theorem Exchange.policy_always {e : Exchange} {policy : Option AutoAccept} {default : AutoAccept}
    (h : e.autoAccept = policy) (always : policy.getD default = .always) :
    e.policy default = .always := by
  rw [Exchange.policy, h, always]

-- The offer is on its way, and both have what they need to go on from there.
structure Couple.Offered (m : Meeting) (before after : Couple) (version : Version) (opening : Opening)
    (policy : Role → Option AutoAccept) (offer : Message) : Prop where
  holder : ∃ path, opening.path .holder =
      path ++ [.offerReceived, .requestSent, .credentialReceived, .done] ∧
    after.holder.AwaitsOffer version (opening.thread m before) (m.connection .holder).id
      before.holder.stores.events (policy .holder) path
  issuer : ∃ path attributes e, opening.path .issuer =
      path ++ [.requestReceived, .credentialIssued, .done] ∧
    after.issuer.AwaitsRequest (m.env .issuer) version (opening.thread m before)
      (m.connection .issuer).id attributes before.issuer.stores.events (policy .issuer) path e offer

section Course

open Talk

variable {m : Meeting} {before couple : Couple} {opening : Opening} {version : Version}
  {policy : Role → Option AutoAccept} {offer : Message}
  (reliable : ∀ role, (m.env role).Reliable)
  (complete : ∀ role, (m.connection role).state = .complete)

include reliable complete

-- From the offer on, every step succeeds.
theorem Couple.Offered.issuance_gives (h : before.Offered m couple version opening policy offer)
    (choices : Choices) :
    Gives m couple (issuance version choices offer) fun records after =>
      before.Completed after version opening (opening.thread m before) records.1 records.2 := by
  obtain ⟨pathH, hpathH, hawaitsOffer⟩ := h.holder
  obtain ⟨pathI, attributes, e, hpathI, hawaitsRequest⟩ := h.issuer
  have hoffers := hawaitsRequest.offers
  refine .bind (.turn hoffers.sent.plain
    ((Holder.offer_turn (reliable .holder) (complete .holder) hawaitsOffer hoffers).imp ?_))
  rintro taken world ⟨-, hrequest⟩
  refine (hrequest choices.did choices.requestPolicy).imp ?_
  rintro requested world ⟨hawaitsCredential, hrequests⟩
  refine .bind (.turn hrequests.sent.plain
    ((Issuer.request_turn (reliable .issuer) (complete .issuer) hawaitsRequest hrequests).imp ?_))
  rintro asked world ⟨-, hissue⟩
  refine (hissue choices.comment choices.issuePolicy).imp ?_
  rintro issued world ⟨hissued, hissues⟩
  refine .bind (.turn hissues.sent.plain
    ((Holder.credential_turn (reliable .holder) hawaitsCredential hissues).imp ?_))
  rintro received world ⟨-, hacknowledge⟩
  refine hacknowledge.imp ?_
  rintro acknowledged world ⟨hholder, hmetadata, hbound, hack⟩
  refine .bind (.deliver hack.plain
    ((Issuer.receiveAck_gives (reliable .issuer) hissued rfl (by simp) rfl hack).imp ?_))
  rintro completed world hissuer
  rw [List.append_assoc] at hholder hissuer
  exact .pure (.of_stands hholder hissuer hpathH hpathI hmetadata hbound)

-- Where both accept everything, the answers come by themselves.
theorem Couple.Offered.relay_gives (h : before.Offered m couple version opening policy offer)
    (always : ∀ role, (policy role).getD (m.env role).config.autoAccept = .always) (spare : Nat) :
    Gives m couple (relay (spare + 4) .holder offer) fun answers after =>
      answers.map Message.kind = [.request, .issue, .ack] ∧ ∃ holder issuer,
        before.Completed after version opening (opening.thread m before) holder issuer := by
  obtain ⟨pathH, hpathH, hawaitsOffer⟩ := h.holder
  obtain ⟨pathI, attributes, e, hpathI, hawaitsRequest⟩ := h.issuer
  have hoffers := hawaitsRequest.offers
  refine .answered hoffers.sent
    ((Holder.offer_turn (reliable .holder) (complete .holder) hawaitsOffer hoffers).imp ?_)
  rintro taken world ⟨hpolicy, hrequest⟩
  refine ⟨_, if_pos (Exchange.policy_always hpolicy (always .holder)), (hrequest none none).imp ?_⟩
  rintro requested world ⟨hawaitsCredential, hrequests⟩
  refine .answered hrequests.sent
    ((Issuer.request_turn (reliable .issuer) (complete .issuer) hawaitsRequest hrequests).imp ?_)
  rintro asked world ⟨hpolicy, hissue⟩
  refine ⟨_, if_pos (Exchange.policy_always hpolicy (always .issuer)), (hissue none none).imp ?_⟩
  rintro issued world ⟨hissued, hissues⟩
  refine .answered hissues.sent
    ((Holder.credential_turn (reliable .holder) hawaitsCredential hissues).imp ?_)
  rintro received world ⟨hpolicy, hacknowledge⟩
  refine ⟨_, if_pos (Exchange.policy_always hpolicy (always .holder)), hacknowledge.imp ?_⟩
  rintro acknowledged world ⟨hholder, hmetadata, hbound, hack⟩
  refine .silent hack
    ((Issuer.receiveAck_gives (reliable .issuer) hissued rfl (by simp) rfl hack).imp ?_)
  rintro completed world hissuer
  rw [List.append_assoc] at hholder hissuer
  refine ⟨ite_self _, ?_, _, _, .of_stands hholder hissuer hpathH hpathI hmetadata hbound⟩
  simp [hrequests.sent.kind, hissues.sent.kind, hack.kind]

omit complete

-- An offer that opens an exchange is all that it takes to go on.
theorem Opening.offer_gives (connection : Option String) (definition : String)
    (details : OfferDetails) (choice : Option AutoAccept)
    (unused : ∀ role, (before.world role).stores.Unused (opening.thread m before))
    (opener : opening.opener = .issuer) (path : opening.path = fun role => role.path.tail)
    (policy : opening.policy = fun | .holder => none | .issuer => choice)
    (line : ∀ c ∈ connection, c = (m.connection .issuer).id) :
    Gives m before
      (Talk.act .issuer ((Operation.offer connection definition details choice).run version))
      fun o after => before.Offered m after version opening opening.policy o.message := by
  have hthread : opening.thread m before =
      (m.env .issuer).threadName (before.world .issuer).journal.threads := by
    rw [Opening.thread, opener]
  rw [hthread] at unused
  refine .act ((Issuer.offer_gives (reliable .issuer) (unused .issuer)).imp ?_)
  rintro o after ⟨hstands, hholds, hoffers⟩
  rw [← hthread] at hstands hoffers unused
  rw [policy]
  refine ⟨⟨[], by rw [path]; rfl, .unasked (unused .holder)⟩,
    ⟨[.offerSent], details.attributes, o.record, by rw [path]; rfl, ⟨_, hstands, ?_⟩, rfl, hholds,
      hoffers⟩⟩
  cases connection with
  | none => exact .inr rfl
  | some c => exact .inl (line c rfl)

-- What opens an exchange is an offer, or else a proposal, for which the holder waits for an offer.
def Couple.Opened (m : Meeting) (before after : Couple) (version : Version) (message : Message) :
    Opening → Prop
  | .proposal wanted choice =>
    (∃ holder, after = before.set .holder holder ∧
      holder.AwaitsOffer version ((Opening.proposal wanted choice).thread m before)
        (m.connection .holder).id before.holder.stores.events choice [.proposalSent]) ∧
    message.Proposes version ((Opening.proposal wanted choice).thread m before) wanted.attributes
      wanted.terms.definition
  | opening => before.Offered m after version opening opening.policy message

theorem Opening.run_gives
    (unused : ∀ role, (before.world role).stores.Unused (opening.thread m before)) :
    Gives m before (opening.run version) fun o after =>
      before.Opened m after version o.message opening := by
  cases opening with
  | offer definition details choice =>
    exact .bind (.line (offer_gives reliable (some _) definition details choice unused rfl rfl
      (funext fun role => by cases role <;> rfl) fun c hc => (Option.some.inj hc).symm))
  | connectionless definition details choice =>
    exact offer_gives reliable none definition details choice unused rfl rfl
      (funext fun role => by cases role <;> rfl) nofun
  | proposal wanted choice =>
    refine .bind (.line (.act
      ((Holder.propose_gives (reliable .holder) (unused .holder)).imp ?_)))
    rintro o after ⟨hstands, hcredentials, hproposes⟩
    exact ⟨⟨after, rfl, .asked hstands hcredentials⟩, hproposes⟩

include complete

-- A proposal that names a credential definition is answered by an offer of any details, and by
-- itself where the issuer accepts everything.
theorem Couple.Opened.proposal_turn {wanted : Proposal} {choice : Option AutoAccept}
    {proposal : Message} (h : before.Opened m couple version proposal (.proposal wanted choice))
    (unused : before.issuer.stores.Unused ((Opening.proposal wanted choice).thread m before))
    (named : wanted.terms.definition.isSome) :
    Action.Gives (m.env .issuer) couple.issuer
      ((Operation.receive .propose ⟨proposal, some (m.connection .issuer)⟩).run version)
      fun received between =>
        ((m.env .issuer).config.autoAccept = .always →
          followUp? (m.env .issuer).config.autoAccept .propose received.record =
            some (.answerProposal received.record.id none .blank none)) ∧
        ∀ chosen details offerChoice,
          Action.Gives (m.env .issuer) between
            ((Operation.answerProposal received.record.id chosen details offerChoice).run version)
            fun o after => before.Offered m (couple.set .issuer after) version
              (.proposal wanted choice) (fun | .holder => choice | .issuer => offerChoice)
              o.message := by
  obtain ⟨⟨holder, rfl, hawaits⟩, hproposes⟩ := h
  refine (Issuer.proposal_turn (reliable .issuer) (complete .issuer) named hproposes unused).imp ?_
  rintro received between ⟨hpolicy, hdefinition, hanswer⟩
  refine ⟨fun always => ?_, fun chosen details offerChoice => ?_⟩
  · rw [followUp?, if_pos (Exchange.policy_always hpolicy always)]
    exact if_pos hdefinition
  · refine (hanswer chosen details offerChoice).imp ?_
    rintro o after ⟨attributes, hoffered⟩
    exact ⟨⟨[.proposalSent], rfl, hawaits⟩,
      ⟨[.proposalReceived, .offerSent], attributes, o.record, rfl, hoffered⟩⟩

theorem Opening.offered_gives
    (unused : ∀ role, (before.world role).stores.Unused (opening.thread m before))
    (named : opening.Named) (choices : Choices) :
    Gives m before (opening.offered version choices) fun offer after =>
      ∃ policy, before.Offered m after version opening policy offer := by
  refine .bind ((run_gives reliable unused).imp ?_)
  intro o after hopened
  cases opening with
  | offer => exact .pure ⟨_, hopened⟩
  | connectionless => exact .pure ⟨_, hopened⟩
  | proposal wanted choice =>
    refine .bind (.turn hopened.2.sent.plain
      ((hopened.proposal_turn reliable complete (unused .issuer) named).imp ?_))
    rintro received between ⟨-, hanswer⟩
    refine (hanswer _ _ _).imp ?_
    intro answered world hoffered
    exact .pure ⟨_, hoffered⟩

theorem Opening.dispatched_gives
    (unused : ∀ role, (before.world role).stores.Unused (opening.thread m before))
    (named : opening.Named)
    (always : ∀ role, (opening.policy role).getD (m.env role).config.autoAccept = .always)
    (spare : Nat) :
    Gives m before (opening.dispatched version (spare + opening.answers.length + 1))
      fun answers after => answers.map Message.kind = opening.answers ∧ ∃ holder issuer,
        before.Completed after version opening (opening.thread m before) holder issuer := by
  refine .bind ((run_gives reliable unused).imp ?_)
  intro o after hopened
  cases opening with
  | offer => exact Couple.Offered.relay_gives reliable complete hopened always spare
  | connectionless => exact Couple.Offered.relay_gives reliable complete hopened always spare
  | proposal wanted choice =>
    refine .answered hopened.2.sent
      ((hopened.proposal_turn reliable complete (unused .issuer) named).imp ?_)
    rintro received between ⟨hfollows, hanswer⟩
    refine ⟨_, hfollows (always .issuer), (hanswer _ _ _).imp ?_⟩
    intro answered world hoffered
    refine (hoffered.relay_gives reliable complete ?_ spare).imp ?_
    · intro role
      cases role
      · exact always .holder
      · exact always .issuer
    · rintro answers after ⟨hkinds, hcompleted⟩
      obtain ⟨_, _, _, -, hawaits⟩ := hoffered.issuer
      refine ⟨?_, hcompleted⟩
      rw [List.map_cons, hkinds, hawaits.offers.sent.kind]
      rfl

end Course

-- Whatever opens an exchange between two agents for whom nothing fails, the steps of the protocol
-- complete it. Where the policy of both records accepts everything, they come by themselves, and
-- after them there is nothing to answer.
theorem Meeting.completes {m : Meeting} {couple : Couple} {opening : Opening}
    (reliable : ∀ role, (m.env role).Reliable)
    (complete : ∀ role, (m.connection role).state = .complete)
    (unused : ∀ role, (couple.world role).stores.Unused (opening.thread m couple))
    (named : opening.Named) (version : Version) :
    (∀ choices, Talk.Gives m couple (opening.steps version choices) fun records after =>
      couple.Completed after version opening (opening.thread m couple) records.1 records.2) ∧
    ((∀ role, (opening.policy role).getD (m.env role).config.autoAccept = .always) →
      ∀ admitted, opening.answers.length < admitted →
        Talk.Gives m couple (opening.dispatched version admitted) fun answers after =>
          answers.map Message.kind = opening.answers ∧ ∃ holder issuer,
            couple.Completed after version opening (opening.thread m couple) holder issuer) := by
  refine ⟨fun choices => ?steps, fun always admitted hadmitted => ?dispatched⟩
  case steps =>
    refine .bind ((Opening.offered_gives reliable complete unused named choices).imp ?_)
    rintro offer after ⟨policy, hoffered⟩
    exact hoffered.issuance_gives reliable complete choices
  case dispatched =>
    obtain ⟨spare, rfl⟩ := Nat.exists_eq_add_of_lt hadmitted
    rw [Nat.add_comm opening.answers.length spare]
    exact Opening.dispatched_gives reliable complete unused named always spare

theorem Environment.prompt_reliable (mark : Char) : (prompt mark).Reliable := by
  have hwritten (definition : String) : Document.Written
      (Json.object [("schema_id", .str "schema"), ("cred_def_id", .str definition)]).text
      [("cred_def_id", .str (some definition)), ("schema_id", .str (some "schema"))] := by
    have hlegible :
        (Json.object [("schema_id", .str "schema"), ("cred_def_id", .str definition)]).Legible 1 :=
      .object (by simp)
    have horder : "cred_def_id" < "schema_id" := by decide
    have hread := Document.parse?_text hlegible
    simpa [Document.Written, Json.object, Json.ordered, Json.insert, horder, Document.ofJson,
      Document.ofMembers] using hread
  constructor
  case answers =>
    rintro n (_ | _ | _ | _ | _ | _ | _ | _ | _ | _ | _ | _ | _ | _ | _ | _) <;> exact ⟨_, rfl⟩
  case shows => exact fun n id => steady_shows mark n id
  case offers =>
    rintro n schema definition keyProof _ ⟨⟩
    exact ⟨_, hwritten definition, ⟨_, rfl⟩, ⟨_, rfl⟩⟩
  case credentials =>
    rintro n definition offer request claims revocation _ ⟨⟩
    exact ⟨_, hwritten definition.definition, ⟨_, rfl⟩, ⟨_, rfl⟩, .inl (by simp)⟩

-- A proposal of some attributes is completed either way, in the second family.
theorem Meeting.completes_proposal :
    let m : Meeting := {
      env := fun | .holder => .prompt 'a' | .issuer => .prompt 'b'
      connection := fun _ => ⟨"connection", "did", "their-did", .complete⟩ }
    let couple : Couple := ⟨.empty, .empty⟩
    let opening : Opening := .proposal
      { Proposal.blank with
        attributes := [.plain "name" "value"]
        terms.definition := some "definition" } none
    (∃ h i after, couple.Completed after .v2 opening "a" h i ∧
      opening.steps .v2 ⟨none, .blank, none, none, none, none, none⟩ m couple = .ok ((h, i), after)) ∧
    ∃ answers after, opening.dispatched .v2 5 m couple = .ok (answers, after) ∧
      answers.map Message.kind = [.offer, .request, .issue, .ack] := by
  intro m couple opening
  have hreliable : ∀ role, (m.env role).Reliable := by
    intro role
    cases role <;> exact Environment.prompt_reliable _
  have hunused : ∀ role, (couple.world role).stores.Unused (opening.thread m couple) := by
    rintro (_ | _) e ⟨⟩
  have hthread : opening.thread m couple = "a" := rfl
  obtain ⟨hsteps, hdispatched⟩ :=
    @completes m couple opening hreliable (fun _ => rfl) hunused rfl .v2
  rw [hthread] at hsteps
  obtain ⟨⟨h, i⟩, after, hrun, hcompleted⟩ := hsteps ⟨none, .blank, none, none, none, none, none⟩
  obtain ⟨answers, last, hanswers, hkinds, -⟩ :=
    hdispatched (fun role => by cases role <;> rfl) 5 (by decide)
  exact ⟨⟨h, i, after, hcompleted, hrun⟩, answers, last, hanswers, hkinds⟩

end CredentialIssuance
