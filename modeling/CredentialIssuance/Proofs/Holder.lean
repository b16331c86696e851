import CredentialIssuance.Proofs.Inquiry

namespace CredentialIssuance

namespace Holder

open Inquiry

variable {env : Environment} {stores : Stores} {journal after : Journal} {version : Version}
  {change : Change}

theorem propose_ok {connection : String} {proposal : Proposal} {autoAccept : Option AutoAccept}
    (h : propose version connection proposal autoAccept env stores journal = (.ok change, after)) :
    ∃ now, change = .opening
        { Exchange.new (env.exchangeName journal.exchanges) .holder version .proposalSent
            (env.threadName journal.threads) connection now with
          autoAccept := autoAccept
          attributes := proposal.attributes
          definition := proposal.terms.definition } .sender
        (version.propose (.opening (env.threadName journal.threads)) proposal) ∧
      after.threads = journal.threads + 1 ∧ after.exchanges = journal.exchanges + 1 := by
  obtain ⟨_, _, hthread, h⟩ := bind_eq_ok_iff.1 h
  obtain ⟨rfl, rfl⟩ := newThread_eq_ok_iff.1 hthread
  obtain ⟨_, _, hrecord, h⟩ := bind_eq_ok_iff.1 h
  obtain ⟨rfl, rfl⟩ := newRecord_eq_ok_iff.1 hrecord
  obtain ⟨rfl, rfl⟩ := pure_eq_ok_iff.1 h
  exact ⟨_, rfl, rfl, rfl⟩

-- The two ways in which an offer is taken in: it answers a proposal, or nothing is known of its
-- thread on the connection it came over.
theorem receiveOffer_ok {inbound : Inbound}
    (h : receiveOffer version inbound env stores journal = (.ok change, after)) :
    ∃ payload offer, version.payload inbound.message .offer = .ok payload ∧
      OfferPayload.ofText payload = .ok offer ∧
      ((∃ stored : Exchange, stores.record? stored.id = some stored ∧
          stored.Answers inbound.message.threadId (some .holder) inbound.connectionId ∧
          stored.version = version ∧ stored.state = .proposalSent ∧
          change = .moving { stored with
            attributes := version.attributes inbound.message
            definition := some offer.definition } .offerReceived .receiver inbound.message) ∨
        ∃ connection now, inbound.ready = .ok connection ∧
          (∀ e ∈ stores.records.entries,
            ¬ e.Answers inbound.message.threadId (some .holder) inbound.connectionId) ∧
          change = .opening
            { Exchange.new (env.exchangeName journal.exchanges) .holder version .offerReceived
                inbound.message.threadId connection.id now with
              parentThreadId :=
                some (inbound.message.parentThreadId.getD inbound.message.threadId)
              attributes := version.attributes inbound.message
              definition := some offer.definition } .receiver inbound.message ∧
          after.exchanges = journal.exchanges + 1) := by
  obtain ⟨payload, hpayload, h⟩ := lift_bind_ok h
  obtain ⟨offer, hoffer, h⟩ := lift_bind_ok h
  refine ⟨payload, offer, hpayload, hoffer, ?_⟩
  obtain ⟨found, _, hfound, h⟩ := bind_eq_ok_iff.1 h
  cases found with
  | some stored =>
    left
    obtain ⟨hstored, hanswers, rfl⟩ := onThread_some hfound
    obtain ⟨_, hversion, h⟩ := lift_bind_ok h
    obtain ⟨_, hstate, h⟩ := lift_bind_ok h
    obtain ⟨rfl, rfl⟩ := pure_eq_ok_iff.1 h
    exact ⟨stored, hstored, hanswers, Exchange.assertVersion_ok hversion,
      Exchange.assertState_ok hstate, rfl⟩
  | none =>
    right
    obtain ⟨hnone, rfl⟩ := onThread_none hfound
    obtain ⟨connection, hready, h⟩ := lift_bind_ok h
    obtain ⟨_, _, hrecord, h⟩ := bind_eq_ok_iff.1 h
    obtain ⟨rfl, rfl⟩ := newRecord_eq_ok_iff.1 hrecord
    obtain ⟨rfl, rfl⟩ := pure_eq_ok_iff.1 h
    exact ⟨connection, _, hready, hnone, rfl, rfl⟩

theorem request_ok {exchange : String} {did : Option String} {autoAccept : Option AutoAccept}
    (h : request version exchange did autoAccept env stores journal = (.ok change, after)) :
    ∃ stored offer payload terms header, ∃ answer : CredentialRequest,
      stores.record? exchange = some stored ∧ stored.version = version ∧ stored.role = .holder ∧
      stored.state = .offerReceived ∧ stores.Holds stored .offer offer ∧
      version.payload offer .offer = .ok payload ∧ OfferPayload.ofText payload = .ok terms ∧
      change = .moving { stored with
          requestMetadata := some answer.metadata
          definition := some terms.definition
          attributes := (version.preview offer).getD stored.attributes
          autoAccept := autoAccept.or stored.autoAccept } .requestSent .sender
        (version.request (.reply header stored.threadId) answer.request offer) := by
  obtain ⟨stored, _, hstored, hversion, hrole, hstate, h⟩ := owned_ok h
  obtain ⟨offer, _, hoffer, h⟩ := bind_eq_ok_iff.1 h
  have hholds := message_ok hoffer
  obtain ⟨payload, hpayload, h⟩ := lift_bind_ok h
  obtain ⟨terms, hterms, h⟩ := lift_bind_ok h
  obtain ⟨_, _, -, h⟩ := bind_eq_ok_iff.1 h
  obtain ⟨_, _, -, h⟩ := bind_eq_ok_iff.1 h
  obtain ⟨_, _, -, h⟩ := bind_eq_ok_iff.1 h
  obtain ⟨answer, _, -, h⟩ := bind_eq_ok_iff.1 h
  obtain ⟨_, _, hreply, h⟩ := bind_eq_ok_iff.1 h
  obtain ⟨rfl, -⟩ := reply_eq_ok_iff.1 hreply
  obtain ⟨rfl, -⟩ := pure_eq_ok_iff.1 h
  exact ⟨stored, offer, payload, terms, _, answer, hstored, hversion, hrole, hstate, hholds,
    hpayload, hterms, rfl⟩

theorem receiveCredential_ok {inbound : Inbound}
    (h : receiveCredential version inbound env stores journal = (.ok change, after)) :
    ∃ stored payload credential metadata id, stores.record? stored.id = some stored ∧
      version.payload inbound.message .issue = .ok payload ∧
      CredentialPayload.ofText payload = .ok credential ∧
      stored.Answers inbound.message.threadId (some .holder) inbound.connectionId ∧
      stored.version = version ∧ stored.state = .requestSent ∧
      stored.requestMetadata = some metadata ∧
      change = .moving { stored with credentials := stored.credentials ++ [⟨"indy", id⟩] }
        .credentialReceived .receiver inbound.message := by
  obtain ⟨payload, hpayload, h⟩ := lift_bind_ok h
  obtain ⟨credential, hcredential, h⟩ := lift_bind_ok h
  obtain ⟨found, _, hfound, h⟩ := bind_eq_ok_iff.1 h
  obtain ⟨stored, hsome, h⟩ := require_bind_ok h
  rw [hsome] at hfound
  obtain ⟨hstored, hanswers, -⟩ := onThread_some hfound
  obtain ⟨_, hversion, h⟩ := lift_bind_ok h
  obtain ⟨_, hstate, h⟩ := lift_bind_ok h
  obtain ⟨metadata, hmetadata, h⟩ := require_bind_ok h
  obtain ⟨_, _, -, h⟩ := bind_eq_ok_iff.1 h
  obtain ⟨_, _, -, h⟩ := bind_eq_ok_iff.1 h
  obtain ⟨_, _, -, h⟩ := bind_eq_ok_iff.1 h
  obtain ⟨_, _, -, h⟩ := bind_eq_ok_iff.1 h
  obtain ⟨id, _, -, h⟩ := bind_eq_ok_iff.1 h
  obtain ⟨rfl, -⟩ := pure_eq_ok_iff.1 h
  exact ⟨stored, payload, credential, metadata, id, hstored, hpayload, hcredential, hanswers,
    Exchange.assertVersion_ok hversion, Exchange.assertState_ok hstate, hmetadata, rfl⟩

theorem acknowledge_ok {exchange : String}
    (h : acknowledge version exchange env stores journal = (.ok change, after)) :
    ∃ stored header, stores.record? exchange = some stored ∧ stored.version = version ∧
      stored.role = .holder ∧ stored.state = .credentialReceived ∧
      change = .moving stored .done .sender (version.ack (.reply header stored.threadId)) := by
  obtain ⟨stored, _, hstored, hversion, hrole, hstate, h⟩ := owned_ok h
  obtain ⟨_, _, hreply, h⟩ := bind_eq_ok_iff.1 h
  obtain ⟨rfl, -⟩ := reply_eq_ok_iff.1 hreply
  obtain ⟨rfl, -⟩ := pure_eq_ok_iff.1 h
  exact ⟨stored, _, hstored, hversion, hrole, hstate, rfl⟩

theorem decline_ok {exchange : String} {reason : Option String}
    (h : decline version exchange reason env stores journal = (.ok change, after)) :
    ∃ stored header, stores.record? exchange = some stored ∧ stored.version = version ∧
      stored.role = .holder ∧ stored.state = .offerReceived ∧
      change = .moving { stored with errorMessage := some (reason.getD defaultReason) } .declined
        .sender (version.problemReport (.reply header stored.threadId) declineCode
          (reason.getD defaultReason)) := by
  obtain ⟨stored, _, hstored, hversion, hrole, hstate, h⟩ := owned_ok h
  obtain ⟨_, _, hreply, h⟩ := bind_eq_ok_iff.1 h
  obtain ⟨rfl, -⟩ := reply_eq_ok_iff.1 hreply
  obtain ⟨rfl, -⟩ := pure_eq_ok_iff.1 h
  exact ⟨stored, _, hstored, hversion, hrole, hstate, rfl⟩

end Holder

end CredentialIssuance
