import CredentialIssuance.Proofs.Family
import CredentialIssuance.Proofs.Yield

namespace CredentialIssuance

-- The record is stored, and no other one is on its thread.
structure Stores.Sole (s : Stores) (e : Exchange) : Prop where
  stored : s.record? e.id = some e
  alone : ∀ other ∈ s.records.entries, other.threadId = e.threadId → other = e

def Stores.Unused (s : Stores) (thread : String) : Prop :=
  ∀ e ∈ s.records.entries, e.threadId ≠ thread

section Select

variable {s : Stores} {e : Exchange} {thread : String} {role : Option Role}

theorem Stores.Sole.onThread (h : s.Sole e) : s.onThread e.threadId = [e] := by
  have hmem : e ∈ s.onThread e.threadId :=
    Stores.mem_onThread.2 ⟨((s.records.get?_eq_some_iff _ _).1 h.stored).1, rfl⟩
  have hsame : ∀ other ∈ s.onThread e.threadId, other = e := by
    intro other hother
    obtain ⟨hlisted, hthread⟩ := Stores.mem_onThread.1 hother
    exact h.alone other hlisted hthread
  have hnodup := s.onThread_nodup e.threadId
  generalize s.onThread e.threadId = listed at hmem hsame hnodup
  rcases listed with _ | ⟨first, _ | ⟨second, rest⟩⟩
  · cases hmem
  · rw [hsame first List.mem_cons_self]
  · have hfirst := hsame first List.mem_cons_self
    have hsecond := hsame second (List.mem_cons_of_mem _ List.mem_cons_self)
    rw [hfirst, hsecond] at hnodup
    exact absurd List.mem_cons_self (List.nodup_cons.1 hnodup).1

-- A look-up by thread finds the record or nothing, depending on the connection it is narrowed to.
theorem Stores.Sole.select (h : s.Sole e) (hrole : ∀ r ∈ role, e.role = r)
    (connection : Option String) :
    Inquiry.select e.threadId role connection (s.onThread e.threadId) =
      .ok (if connection.all (e.connectionId = ·) then some e else none) := by
  have hall : role.all (e.role = ·) = true := by simpa [Option.all_eq_true] using hrole
  cases hbound : connection.all (e.connectionId = ·) <;>
    simp [Inquiry.select, h.onThread, hall, hbound]

theorem Stores.Unused.select (h : s.Unused thread) (connection : Option String) :
    Inquiry.select thread role connection (s.onThread thread) = .ok none :=
  Inquiry.select_vacant fun e he answers => h e (Stores.mem_onThread.1 he).1 answers.1

end Select

theorem Inbound.ready_of_complete {m : Message} {connection : Connection}
    (complete : connection.state = .complete) :
    Inbound.ready ⟨m, some connection⟩ = .ok connection := by
  simp [Inbound.ready, Connection.isReady, complete]

section Ends

open Inquiry

variable {env : Environment} {s : Stores} {E : Error → Prop} (external : ∀ x, env.Causes x → E x)
  {version : Version} {inbound : Inbound} {e : Exchange}

-- A record without a connection of its own is found over any.
theorem Inquiry.Ends.bound_sole {role : Option Role} {c : String}
    (external : ∀ x, env.Causes x → E x) (sole : s.Sole e) (hrole : ∀ r ∈ role, e.role = r)
    (hconnection : e.connectionId = c ∨ e.connectionId = env.config.connectionlessId) :
    Ends env s (bound e.threadId role (some c)) (· = some e) E := by
  refine .bind .config ?_
  rintro _ rfl
  refine .bind (.onThread_eq external (sole.select hrole (some c))) ?_
  rintro _ rfl
  by_cases hc : e.connectionId = c
  · rw [if_pos (by simpa using hc)]
    exact .pure rfl
  · have hfound := sole.select hrole (some env.config.connectionlessId)
    have hbound := hconnection.resolve_left hc
    rw [if_pos (by simpa using hbound)] at hfound
    rw [if_neg (by simpa using hc)]
    exact .onThread_eq external hfound

include external

-- What becomes of a payload that an issuer's machinery makes, if all that it makes is of a kind.
theorem Issuer.offerPayload_ends {definition : String} {P : String → Prop}
    (made : ∀ n schema definition keyProof text,
      env.answer n (.createOffer schema definition keyProof) = .ok text → P text) :
    Ends env s (offerPayload definition) P E :=
  .bind (.call external _) fun _ _ => .call_answers external fun n text h => made n _ _ _ text h

theorem Issuer.offer_ends {connection : Option String} {definition : String}
    {details : OfferDetails} {autoAccept : Option AutoAccept} {P : String → Prop}
    (made : ∀ n schema definition keyProof text,
      env.answer n (.createOffer schema definition keyProof) = .ok text → P text) :
    Ends env s (offer version connection definition details autoAccept)
      (fun c => ∃ payload, version.payload c.message .offer = .ok payload ∧ P payload) E := by
  refine .bind (offerPayload_ends external made) fun payload hpayload => .bind .config ?_
  rintro _ rfl
  refine .bind .newThread fun thread _ => .bind (.newRecord _ _ _ _ _) fun record _ => .pure ?_
  exact ⟨payload, version.payload_offer _ _ _, hpayload⟩

theorem Issuer.answerProposal_ends (shows : env.Shows) {definition : Option String}
    {details : OfferDetails} {autoAccept : Option AutoAccept} {offered : String}
    {P : String → Prop}
    (made : ∀ n schema definition keyProof text,
      env.answer n (.createOffer schema definition keyProof) = .ok text → P text)
    (hstored : s.record? e.id = some e) (hversion : e.version = version) (hrole : e.role = .issuer)
    (hstate : e.state = .proposalReceived) (hdefinition : definition.or e.definition = some offered) :
    Ends env s (answerProposal version e.id definition details autoAccept)
      (fun c => ∃ payload, version.payload c.message .offer = .ok payload ∧ P payload) E := by
  refine .owned external shows hstored hversion hrole hstate ?_
  simp only [hdefinition]
  refine .bind (offerPayload_ends external made) fun payload hpayload => ?_
  refine .bind (.reply _) fun header _ => .pure ?_
  exact ⟨payload, version.payload_offer _ _ _, hpayload⟩

omit external in
theorem Holder.propose_ends {connection : String} {proposal : Proposal}
    {autoAccept : Option AutoAccept} :
    Ends env s (propose version connection proposal autoAccept) (fun _ => True) E :=
  .bind .newThread fun _ _ => .bind (.newRecord _ _ _ _ _) fun _ _ => .pure trivial

theorem Issuer.receiveProposal_ends {connection : Connection} {definition : Option String}
    (hkind : inbound.message.kind = .propose) (hversion : inbound.message.version = version)
    (hready : inbound.ready = .ok connection)
    (hdefinition : version.proposedDefinition inbound.message = .ok definition)
    (vacant : ∀ e ∈ s.records.entries, ¬ e.Answers inbound.message.threadId (some .issuer) none) :
    Ends env s (receiveProposal version inbound) (fun _ => True) E := by
  simp only [receiveProposal, hkind, hversion, ne_eq, not_true, or_self, if_false]
  refine .lift_bind hready (.lift_bind hdefinition ?_)
  refine .bind (.onThread_eq external (select_vacant fun e he => ?_)) ?_
  · exact vacant e (Stores.mem_onThread.1 he).1
  rintro _ rfl
  exact .bind (.newRecord _ _ _ _ _) fun _ _ => .pure trivial

section Offer

variable {payload : String} {terms : OfferPayload}
  (hpayload : version.payload inbound.message .offer = .ok payload)
  (hterms : OfferPayload.ofText payload = .ok terms)

include hpayload hterms

-- An offer opens a record on a thread of which nothing is known.
theorem Holder.receiveOffer_ends {connection : Connection} (hready : inbound.ready = .ok connection)
    (unused : s.Unused inbound.message.threadId) :
    Ends env s (receiveOffer version inbound) (fun _ => True) E := by
  refine .lift_bind hpayload (.lift_bind hterms ?_)
  refine .bind (.onThread_eq external (unused.select _)) ?_
  rintro _ rfl
  exact .lift_bind hready (.bind (.newRecord _ _ _ _ _) fun _ _ => .pure trivial)

-- An offer answers the proposal that was made over the connection it comes over.
theorem Holder.receiveAnswer_ends (sole : s.Sole e) (hthread : inbound.message.threadId = e.threadId)
    (hconnection : inbound.connectionId = some e.connectionId) (hversion : e.version = version)
    (hrole : e.role = .holder) (hstate : e.state = .proposalSent) :
    Ends env s (receiveOffer version inbound) (fun _ => True) E := by
  have hsame : ∀ r ∈ some Role.holder, e.role = r := by simpa using hrole
  have hfound := sole.select hsame (some e.connectionId)
  rw [if_pos (by simp)] at hfound
  refine .lift_bind hpayload (.lift_bind hterms ?_)
  simp only [hthread, hconnection]
  refine .bind (.onThread_eq external hfound) ?_
  rintro _ rfl
  refine .lift_bind (if_pos hversion) (.lift_bind (if_pos ?_) (.pure trivial))
  exact List.mem_singleton.2 hstate

end Offer

-- A request is made for an offer that can be read.
theorem Holder.request_ends (shows : env.Shows) {offer : Message} {payload : String}
    {terms : OfferPayload} (hstored : s.record? e.id = some e) (hversion : e.version = version)
    (hrole : e.role = .holder) (hstate : e.state = .offerReceived) (hoffer : s.Holds e .offer offer)
    (hpayload : version.payload offer .offer = .ok payload)
    (hterms : OfferPayload.ofText payload = .ok terms) (did : Option String)
    (autoAccept : Option AutoAccept) :
    Ends env s (request version e.id did autoAccept) (fun _ => True) E := by
  refine .owned external shows hstored hversion hrole hstate (.bind (.message external hoffer) ?_)
  rintro _ rfl
  refine .lift_bind hpayload (.lift_bind hterms ?_)
  refine .bind (.requesterDid external e did) fun did _ => ?_
  refine .bind (.ledger external _ _) fun definition _ => ?_
  refine .bind (.call external _) fun linkSecret _ => .bind (.call external _) fun request _ => ?_
  exact .bind (.reply _) fun header _ => .pure trivial

theorem Issuer.receiveRequest_ends {payload : String} {connection : Connection} (sole : s.Sole e)
    (hthread : inbound.message.threadId = e.threadId)
    (hpayload : version.payload inbound.message .request = .ok payload)
    (hready : inbound.ready = .ok connection)
    (hconnection : e.connectionId = connection.id ∨ e.connectionId = env.config.connectionlessId)
    (hversion : e.version = version) (hrole : e.role = .issuer) (hstate : e.state = .offerSent) :
    Ends env s (receiveRequest version inbound) (fun _ => True) E := by
  refine .lift_bind hpayload (.lift_bind hready ?_)
  simp only [hthread]
  refine .bind (.bound_sole external sole (by simpa using hrole) hconnection) ?_
  rintro _ rfl
  refine .lift_bind (if_pos hversion) (.lift_bind (if_pos ?_) (.pure trivial))
  exact List.mem_singleton.2 hstate

theorem Issuer.issue_ends (shows : env.Shows) {offer request : Message}
    {offerPayload requestPayload : String} {terms : OfferPayload} {P : String → Prop}
    (made : ∀ n definition offer request claims revocation text,
      env.answer n (.createCredential definition offer request claims revocation) = .ok text → P text)
    (hstored : s.record? e.id = some e) (hversion : e.version = version) (hrole : e.role = .issuer)
    (hstate : e.state = .requestReceived) (hoffer : s.Holds e .offer offer)
    (hrequest : s.Holds e .request request)
    (hofferPayload : version.payload offer .offer = .ok offerPayload)
    (hrequestPayload : version.payload request .request = .ok requestPayload)
    (hterms : OfferPayload.ofText offerPayload = .ok terms) (comment : Option String)
    (autoAccept : Option AutoAccept) :
    Ends env s (issue version e.id comment autoAccept)
      (fun c => ∃ payload, version.payload c.message .issue = .ok payload ∧ P payload) E := by
  refine .owned external shows hstored hversion hrole hstate (.bind (.message external hoffer) ?_)
  rintro _ rfl
  refine .bind (.message external hrequest) ?_
  rintro _ rfl
  refine .lift_bind hofferPayload (.lift_bind hrequestPayload (.lift_bind hterms ?_))
  refine .bind (.call external _) fun definition _ => .bind (.call external _) fun revocation _ => ?_
  refine .bind (.call_answers external fun n text h => made n _ _ _ _ _ text h)
    fun credential hmade => ?_
  refine .bind (.reply _) fun header _ => .pure ?_
  exact ⟨credential, version.payload_issue _ _ _ _, hmade⟩

theorem Holder.receiveCredential_ends {payload metadata : String} {credential : CredentialPayload}
    (sole : s.Sole e) (hthread : inbound.message.threadId = e.threadId)
    (hpayload : version.payload inbound.message .issue = .ok payload)
    (hcredential : CredentialPayload.ofText payload = .ok credential)
    (hconnection : inbound.connectionId = some e.connectionId) (hversion : e.version = version)
    (hrole : e.role = .holder) (hstate : e.state = .requestSent)
    (hmetadata : e.requestMetadata = some metadata) :
    Ends env s (receiveCredential version inbound) (fun _ => True) E := by
  have hsame : ∀ r ∈ some Role.holder, e.role = r := by simpa using hrole
  have hfound := sole.select hsame (some e.connectionId)
  rw [if_pos (by simp)] at hfound
  refine .lift_bind hpayload (.lift_bind hcredential ?_)
  simp only [hthread, hconnection]
  refine .bind (.onThread_eq external hfound) ?_
  rintro _ rfl
  refine .require_bind (.lift_bind (if_pos hversion) (.lift_bind (if_pos ?_) ?_))
  · exact List.mem_singleton.2 hstate
  rw [hmetadata]
  refine .require_bind ?_
  refine .bind (.ledger external _ _) fun _ _ => .bind (.ledger external _ _) fun definition _ => ?_
  refine .bind (.registry external _) fun registry _ => .bind (.call external _) fun secret _ => ?_
  exact .bind (.call external _) fun id _ => .pure trivial

theorem Holder.acknowledge_ends (shows : env.Shows) (hstored : s.record? e.id = some e)
    (hversion : e.version = version) (hrole : e.role = .holder)
    (hstate : e.state = .credentialReceived) :
    Ends env s (acknowledge version e.id) (fun _ => True) E :=
  .owned external shows hstored hversion hrole hstate (.bind (.reply _) fun _ _ => .pure trivial)

theorem Issuer.receiveAck_ends (sole : s.Sole e) (hthread : inbound.message.threadId = e.threadId)
    (hkind : inbound.message.kind = .ack) (hmessage : inbound.message.version = version)
    (hconnection : inbound.connectionId = some e.connectionId) (hversion : e.version = version)
    (hrole : e.role = .issuer) (hstate : e.state = .credentialIssued) :
    Ends env s (receiveAck version inbound) (fun _ => True) E := by
  have hsame : ∀ r ∈ some Role.issuer, e.role = r := by simpa using hrole
  have hfound := sole.select hsame (some e.connectionId)
  rw [if_pos (by simp)] at hfound
  simp only [receiveAck, hkind, hmessage, ne_eq, not_true, or_self, if_false, hthread, hconnection]
  refine .bind (.onThread_eq external hfound) ?_
  rintro _ rfl
  refine .require_bind (.lift_bind (if_pos hversion) (.lift_bind (if_pos ?_) (.pure trivial)))
  exact List.mem_singleton.2 hstate

end Ends

end CredentialIssuance
