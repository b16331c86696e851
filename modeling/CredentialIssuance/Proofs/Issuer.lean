import CredentialIssuance.Proofs.Inquiry

namespace CredentialIssuance

variable {env : Environment} {stores : Stores} {journal after : Journal} {version : Version}
  {change : Change}

namespace Issuer

open Inquiry

theorem receiveProposal_ok {inbound : Inbound}
    (h : receiveProposal version inbound env stores journal = (.ok change, after)) :
    inbound.message.kind = .propose ∧ inbound.message.version = version ∧
      ∃ connection definition now, inbound.ready = .ok connection ∧
        version.proposedDefinition inbound.message = .ok definition ∧
        (∀ e ∈ stores.records.entries,
          ¬ e.Answers inbound.message.threadId (some .issuer) none) ∧
        change = .opening
          { Exchange.new (env.exchangeName journal.exchanges) .issuer version .proposalReceived
              inbound.message.threadId connection.id now with
            parentThreadId := inbound.message.parentThreadId
            attributes := version.attributes inbound.message
            definition := definition } .receiver inbound.message ∧
        after.exchanges = journal.exchanges + 1 := by
  simp only [receiveProposal] at h
  split at h
  · exact absurd h fail_ne_ok
  · next hkind =>
    rw [not_or, Decidable.not_not, Decidable.not_not] at hkind
    refine ⟨hkind.1, hkind.2, ?_⟩
    obtain ⟨connection, hready, h⟩ := lift_bind_ok h
    obtain ⟨definition, hdefinition, h⟩ := lift_bind_ok h
    obtain ⟨found, _, hfound, h⟩ := bind_eq_ok_iff.1 h
    cases found with
    | some existing => exact absurd h fail_ne_ok
    | none =>
      obtain ⟨hnone, rfl⟩ := onThread_none hfound
      obtain ⟨_, _, hrecord, h⟩ := bind_eq_ok_iff.1 h
      obtain ⟨rfl, rfl⟩ := newRecord_eq_ok_iff.1 hrecord
      obtain ⟨rfl, rfl⟩ := pure_eq_ok_iff.1 h
      exact ⟨connection, definition, _, hready, hdefinition, hnone, rfl, rfl⟩

theorem offer_ok {connection : Option String} {definition : String} {details : OfferDetails}
    {autoAccept : Option AutoAccept}
    (h : offer version connection definition details autoAccept env stores journal =
      (.ok change, after)) :
    ∃ payload now, change = .opening
        { Exchange.new (env.exchangeName journal.exchanges) .issuer version .offerSent
            (env.threadName journal.threads)
            (connection.getD env.config.connectionlessId) now with
          autoAccept := autoAccept
          attributes := details.attributes
          definition := some definition } .sender
        (version.offer (.opening (env.threadName journal.threads)) payload details) ∧
      after.threads = journal.threads + 1 ∧ after.exchanges = journal.exchanges + 1 := by
  obtain ⟨payload, _, hpayload, h⟩ := bind_eq_ok_iff.1 h
  obtain ⟨issuer, -, hpayload⟩ := ask_bind_ok hpayload
  obtain ⟨-, rfl⟩ := ask_eq_ok_iff.1 hpayload
  obtain ⟨_, _, hconfig, h⟩ := bind_eq_ok_iff.1 h
  cases hconfig
  obtain ⟨_, _, hthread, h⟩ := bind_eq_ok_iff.1 h
  obtain ⟨rfl, rfl⟩ := newThread_eq_ok_iff.1 hthread
  obtain ⟨_, _, hrecord, h⟩ := bind_eq_ok_iff.1 h
  obtain ⟨rfl, rfl⟩ := newRecord_eq_ok_iff.1 hrecord
  obtain ⟨rfl, rfl⟩ := pure_eq_ok_iff.1 h
  exact ⟨payload, _, rfl, rfl, rfl⟩

theorem answerProposal_ok {exchange : String} {definition : Option String}
    {details : OfferDetails} {autoAccept : Option AutoAccept}
    (h : answerProposal version exchange definition details autoAccept env stores journal =
      (.ok change, after)) :
    ∃ stored offered payload header, stores.record? exchange = some stored ∧
      stored.version = version ∧ stored.role = .issuer ∧ stored.state = .proposalReceived ∧
      definition.or stored.definition = some offered ∧
      let attributes := if details.attributes = [] then stored.attributes else details.attributes
      change = .moving { stored with
          attributes := attributes
          definition := some offered
          autoAccept := autoAccept.or stored.autoAccept } .offerSent .sender
        (version.offer (.reply header stored.threadId) payload { details with attributes }) := by
  obtain ⟨stored, _, hstored, hversion, hrole, hstate, h⟩ := owned_ok h
  cases hdefinition : definition.or stored.definition with
  | none =>
    simp only [hdefinition] at h
    exact absurd h fail_ne_ok
  | some offered =>
    simp only [hdefinition] at h
    obtain ⟨payload, _, -, h⟩ := bind_eq_ok_iff.1 h
    obtain ⟨_, _, hreply, h⟩ := bind_eq_ok_iff.1 h
    obtain ⟨rfl, -⟩ := reply_eq_ok_iff.1 hreply
    obtain ⟨rfl, -⟩ := pure_eq_ok_iff.1 h
    exact ⟨stored, offered, payload, _, hstored, hversion, hrole, hstate, hdefinition, rfl⟩

-- The two ways in which a request is taken in: it answers an offer, or the issuer knows nothing of
-- its thread.
theorem receiveRequest_ok {inbound : Inbound}
    (h : receiveRequest version inbound env stores journal = (.ok change, after)) :
    ∃ payload connection, version.payload inbound.message .request = .ok payload ∧
      inbound.ready = .ok connection ∧
      ((∃ stored : Exchange, stores.record? stored.id = some stored ∧
          stored.Answers inbound.message.threadId (some .issuer) none ∧
          (stored.connectionId = connection.id ∨
            stored.connectionId = env.config.connectionlessId) ∧
          stored.version = version ∧ stored.state = .offerSent ∧
          change = .moving { stored with connectionId := connection.id } .requestReceived .receiver
            inbound.message) ∨
        ∃ now, (∀ e ∈ stores.records.entries,
            ¬ e.Answers inbound.message.threadId (some .issuer) none) ∧
          change = .opening (Exchange.new (env.exchangeName journal.exchanges) .issuer version
            .requestReceived inbound.message.threadId connection.id now) .receiver
            inbound.message ∧
          after.exchanges = journal.exchanges + 1) := by
  obtain ⟨payload, hpayload, h⟩ := lift_bind_ok h
  obtain ⟨connection, hready, h⟩ := lift_bind_ok h
  refine ⟨payload, connection, hpayload, hready, ?_⟩
  obtain ⟨found, between, hfound, h⟩ := bind_eq_ok_iff.1 h
  cases found with
  | some stored =>
    left
    obtain ⟨hstored, hanswers, hconnection, -⟩ := bound_some hfound
    obtain ⟨_, hversion, h⟩ := lift_bind_ok h
    obtain ⟨_, hstate, h⟩ := lift_bind_ok h
    obtain ⟨rfl, -⟩ := pure_eq_ok_iff.1 h
    exact ⟨stored, hstored, hanswers, hconnection _ rfl, Exchange.assertVersion_ok hversion,
      Exchange.assertState_ok hstate, rfl⟩
  | none =>
    right
    have hexchanges := bound_exchanges hfound
    obtain ⟨other, _, hother, h⟩ := bind_eq_ok_iff.1 h
    cases other with
    | some other => exact absurd h fail_ne_ok
    | none =>
      obtain ⟨hnone, rfl⟩ := onThread_none hother
      obtain ⟨_, _, hrecord, h⟩ := bind_eq_ok_iff.1 h
      obtain ⟨rfl, rfl⟩ := newRecord_eq_ok_iff.1 hrecord
      obtain ⟨rfl, rfl⟩ := pure_eq_ok_iff.1 h
      refine ⟨env.now (between.asked (.byThread inbound.message.threadId)).calls.length, hnone,
        ?_, ?_⟩
      · rw [← hexchanges]; rfl
      · rw [← hexchanges]; rfl

theorem issue_ok {exchange : String} {comment : Option String} {autoAccept : Option AutoAccept}
    (h : issue version exchange comment autoAccept env stores journal = (.ok change, after)) :
    ∃ stored offer request offerPayload requestPayload terms credential header,
      stores.record? exchange = some stored ∧ stored.version = version ∧ stored.role = .issuer ∧
      stored.state = .requestReceived ∧ stores.Holds stored .offer offer ∧
      stores.Holds stored .request request ∧ version.payload offer .offer = .ok offerPayload ∧
      version.payload request .request = .ok requestPayload ∧
      OfferPayload.ofText offerPayload = .ok terms ∧
      change = .moving { stored with autoAccept := autoAccept.or stored.autoAccept }
        .credentialIssued .sender
        (version.issue (.reply header stored.threadId) credential comment offer) := by
  obtain ⟨stored, _, hstored, hversion, hrole, hstate, h⟩ := owned_ok h
  obtain ⟨offer, _, hoffer, h⟩ := bind_eq_ok_iff.1 h
  obtain ⟨request, _, hrequest, h⟩ := bind_eq_ok_iff.1 h
  obtain ⟨offerPayload, hofferPayload, h⟩ := lift_bind_ok h
  obtain ⟨requestPayload, hrequestPayload, h⟩ := lift_bind_ok h
  obtain ⟨terms, hterms, h⟩ := lift_bind_ok h
  obtain ⟨_, _, -, h⟩ := bind_eq_ok_iff.1 h
  obtain ⟨_, _, -, h⟩ := bind_eq_ok_iff.1 h
  obtain ⟨credential, _, -, h⟩ := bind_eq_ok_iff.1 h
  obtain ⟨_, _, hreply, h⟩ := bind_eq_ok_iff.1 h
  obtain ⟨rfl, -⟩ := reply_eq_ok_iff.1 hreply
  obtain ⟨rfl, -⟩ := pure_eq_ok_iff.1 h
  exact ⟨stored, offer, request, offerPayload, requestPayload, terms, credential, _, hstored,
    hversion, hrole, hstate, message_ok hoffer, message_ok hrequest, hofferPayload,
    hrequestPayload, hterms, rfl⟩

theorem receiveAck_ok {inbound : Inbound}
    (h : receiveAck version inbound env stores journal = (.ok change, after)) :
    inbound.message.kind = .ack ∧ inbound.message.version = version ∧
      ∃ stored : Exchange, stores.record? stored.id = some stored ∧
        stored.Answers inbound.message.threadId (some .issuer) inbound.connectionId ∧
        stored.version = version ∧ stored.state = .credentialIssued ∧
        change = .moving stored .done .receiver inbound.message := by
  simp only [receiveAck] at h
  split at h
  · exact absurd h fail_ne_ok
  · next hkind =>
    rw [not_or, Decidable.not_not, Decidable.not_not] at hkind
    refine ⟨hkind.1, hkind.2, ?_⟩
    obtain ⟨found, _, hfound, h⟩ := bind_eq_ok_iff.1 h
    obtain ⟨stored, hsome, h⟩ := require_bind_ok h
    rw [hsome] at hfound
    obtain ⟨hstored, hanswers, -⟩ := onThread_some hfound
    obtain ⟨_, hversion, h⟩ := lift_bind_ok h
    obtain ⟨_, hstate, h⟩ := lift_bind_ok h
    obtain ⟨rfl, -⟩ := pure_eq_ok_iff.1 h
    exact ⟨stored, hstored, hanswers, Exchange.assertVersion_ok hversion,
      Exchange.assertState_ok hstate, rfl⟩

end Issuer

open Inquiry in
theorem receiveReport_ok {inbound : Inbound}
    (h : receiveReport version inbound env stores journal = (.ok change, after)) :
    ∃ stored : Exchange, stores.record? stored.id = some stored ∧
      stored.Answers inbound.message.threadId none none ∧
      (∀ c ∈ inbound.connectionId,
        stored.connectionId = c ∨ stored.connectionId = env.config.connectionlessId) ∧
      stored.version = version ∧ stored.state.isTerminal = false ∧
      change = .moving { stored with
          errorMessage := some (inbound.message.comment.getD defaultReport) } .declined .receiver
        inbound.message := by
  obtain ⟨found, _, hfound, h⟩ := bind_eq_ok_iff.1 h
  obtain ⟨stored, hsome, h⟩ := require_bind_ok h
  rw [hsome] at hfound
  obtain ⟨hstored, hanswers, hconnection, -⟩ := bound_some hfound
  obtain ⟨_, hversion, h⟩ := lift_bind_ok h
  obtain ⟨_, hopen, h⟩ := lift_bind_ok h
  obtain ⟨rfl, -⟩ := pure_eq_ok_iff.1 h
  exact ⟨stored, hstored, hanswers, hconnection, Exchange.assertVersion_ok hversion,
    Exchange.assertOpen_ok hopen, rfl⟩

open Inquiry in
-- A report can be at fault only in the look-up of its record.
theorem receiveReport_fault {inbound : Inbound} {fault : Fault}
    (h : receiveReport version inbound env stores journal = (.error (.invalidMessage fault), after)) :
    ∃ narrowed, (∀ c ∈ inbound.connectionId,
        narrowed = some c ∨ narrowed = some env.config.connectionlessId) ∧
      select inbound.message.threadId none narrowed (stores.onThread inbound.message.threadId) =
        .error (.invalidMessage fault) := by
  rcases bind_eq_error_iff.1 h with hbound | ⟨found, _, -, h⟩
  · exact bound_fault hbound
  rcases bind_eq_error_iff.1 h with hrequire | ⟨stored, _, -, h⟩
  · cases found <;> cases hrequire
  rcases bind_eq_error_iff.1 h with hversion | ⟨_, _, -, h⟩
  · cases Exchange.assertVersion_isFault (congrArg Prod.fst hversion)
  rcases bind_eq_error_iff.1 h with hopen | ⟨_, _, -, h⟩
  · cases Exchange.assertOpen_isFault (congrArg Prod.fst hopen)
  · cases h

end CredentialIssuance
