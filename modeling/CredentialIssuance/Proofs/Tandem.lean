import CredentialIssuance.Proofs.Pairing

namespace CredentialIssuance

open Inquiry

variable {ι : Type} [Preorder ι] {P : Pairing ι} {n : ι}

-- The same message arrives in both runs, over the same connection and on the same thread.
structure Inbound.Paired (P : Pairing ι) (n : ι) (i i' : Inbound) : Prop where
  message : P.message n i.message i'.message
  thread : P.thread i.message.threadId i.message.threadId
  threadId : i'.message.threadId = i.message.threadId
  parentThreadId : i'.message.parentThreadId = i.message.parentThreadId
  connection : i'.connection = i.connection

-- The same operation. One that names a record names what stands for it in the other run.
inductive Operation.Paired (P : Pairing ι) (n : ι) : Operation → Operation → Prop where
  | propose (starts : P.starts) (connection : String) (proposal : Proposal)
      (autoAccept : Option AutoAccept) :
      Paired P n (.propose connection proposal autoAccept) (.propose connection proposal autoAccept)
  | offer (starts : P.starts) (connection : Option String) (definition : String)
      (details : OfferDetails) (autoAccept : Option AutoAccept) :
      Paired P n (.offer connection definition details autoAccept)
        (.offer connection definition details autoAccept)
  | answerProposal {a b : String} (id : P.id n a b) (definition : Option String)
      (details : OfferDetails) (autoAccept : Option AutoAccept) :
      Paired P n (.answerProposal a definition details autoAccept)
        (.answerProposal b definition details autoAccept)
  | request {a b : String} (id : P.id n a b) (offer : P.readable .offer) (did : Option String)
      (autoAccept : Option AutoAccept) :
      Paired P n (.request a did autoAccept) (.request b did autoAccept)
  | issue {a b : String} (id : P.id n a b) (offer : P.readable .offer)
      (request : P.readable .request) (comment : Option String) (autoAccept : Option AutoAccept) :
      Paired P n (.issue a comment autoAccept) (.issue b comment autoAccept)
  | acknowledge {a b : String} (id : P.id n a b) : Paired P n (.acknowledge a) (.acknowledge b)
  | decline {a b : String} (id : P.id n a b) (reason : Option String) :
      Paired P n (.decline a reason) (.decline b reason)
  | receive (kind : Kind) {i i' : Inbound} (inbound : i.Paired P n i') :
      Paired P n (.receive kind i) (.receive kind i')

-- Both open a record at the later stage, or both move one that they have found before.
inductive Change.Paired (P : Pairing ι) (n m : ι) : Change → Change → Prop where
  | opening {e e' : Exchange} {party : Party} {a b : Message} (record : P.Record m e e')
      (message : P.message m a b) : Paired P n m (.opening e party a) (.opening e' party b)
  | moving {e e' : Exchange} {next : State} {party : Party} {a b : Message}
      (record : P.Record n e e') (message : P.message m a b) :
      Paired P n m (.moving e next party a) (.moving e' next party b)

section Related

variable (h : P.Sound n) {i i' : Inbound} {a b : String}
include h

theorem Inbound.ready_related (hi : i.Paired P n i') :
    Concur (P.error n) (· = ·) i.ready i'.ready := by
  have hfault := (h.reads hi.message).fault (fun _ type => .noConnection type) fun _ _ => rfl
  unfold Inbound.ready
  rw [hi.connection]
  cases i.connection with
  | none => exact .error hfault
  | some c =>
    refine .self fun x hx => h.self ?_
    dsimp only at hx
    split at hx <;> cases hx
    rfl

theorem Holder.propose_related (starts : P.starts) (connection : String) (proposal : Proposal)
    (autoAccept : Option AutoAccept) :
    Related P n (Change.Paired P n) (Holder.propose P.version connection proposal autoAccept)
      (Holder.propose P.version' connection proposal autoAccept) := by
  refine .step (h.newThread starts) fun thread thread' hthread =>
    .map (h.newRecord .holder .proposalSent connection hthread) ?_
  rintro m e _ - ⟨mark, hmark, rfl⟩
  exact .opening ⟨mark, hmark, rfl⟩ (h.propose proposal (h.opening starts hthread))

theorem Holder.receiveOffer_related (hi : i.Paired P n i') :
    Related P n (Change.Paired P n) (Holder.receiveOffer P.version i)
      (Holder.receiveOffer P.version' i') := by
  have hreads := h.reads hi.message
  simp only [Holder.receiveOffer, hi.threadId, hi.parentThreadId, Inbound.connectionId,
    hi.connection, Version.attributes, hreads.preview]
  refine .same (.lift (hreads.payload .offer (by decide))) fun payload => ?_
  refine .same (.lift (h.offerTerms payload)) fun offer => ?_
  refine .step (h.onThread hi.thread (some .holder) _) fun found found' hfound => ?_
  cases hfound with
  | some he =>
    refine .same (.lift (h.assertVersion he)) fun _ => ?_
    refine .same (.lift (h.assertState he [.proposalSent])) fun _ => ?_
    obtain ⟨mark, hmark, rfl⟩ := he
    exact .pure (.moving ⟨mark, hmark, rfl⟩ hi.message)
  | none =>
    refine .same (.lift (Inbound.ready_related h hi)) fun connection => ?_
    refine .map (h.newRecord .holder .offerReceived connection.id hi.thread) ?_
    rintro m e _ hm ⟨mark, hmark, rfl⟩
    exact .opening ⟨mark, hmark, rfl⟩ (h.later hm hi.message)

theorem Holder.request_related (hid : P.id n a b) (hoffer : P.readable .offer) (did : Option String)
    (autoAccept : Option AutoAccept) :
    Related P n (Change.Paired P n) (Holder.request P.version a did autoAccept)
      (Holder.request P.version' b did autoAccept) := by
  refine h.owned hid .holder .offerReceived fun e e' he => ?_
  refine .step (h.message he hoffer) fun offer offer' hoffer => ?_
  have hreads := h.reads hoffer
  refine .same (.lift (hreads.payload .offer (by decide))) fun payload => ?_
  refine .same (.lift (h.offerTerms payload)) fun terms => ?_
  refine .same (h.requesterDid he did) fun did => ?_
  refine .same (h.ledger .credentialDefinition terms.definition) fun definition => ?_
  refine .same (h.call .linkSecretId rfl) fun linkSecret => ?_
  refine .same (h.call (.createRequest did definition linkSecret payload) rfl) fun request => ?_
  have hreply := h.reply he
  obtain ⟨mark, hmark, rfl⟩ := he
  refine .map hreply fun m header header' _ hheader => ?_
  refine .moving ⟨mark, hmark, ?_⟩ (h.request _ hheader hoffer)
  rw [hreads.preview]
  rfl

theorem Holder.receiveCredential_related (hi : i.Paired P n i') :
    Related P n (Change.Paired P n) (Holder.receiveCredential P.version i)
      (Holder.receiveCredential P.version' i') := by
  have hreads := h.reads hi.message
  simp only [Holder.receiveCredential, hi.threadId, Inbound.connectionId, hi.connection]
  refine .same (.lift (hreads.payload .issue (by decide))) fun payload => ?_
  refine .same (.lift (h.credentialTerms payload)) fun credential => ?_
  refine .step (h.onThread hi.thread (some .holder) _) fun found found' hfound => ?_
  refine .step (.require hfound (h.self rfl)) fun e e' he => ?_
  refine .same (.lift (h.assertVersion he)) fun _ => ?_
  refine .same (.lift (h.assertState he [.requestSent])) fun _ => ?_
  obtain ⟨mark, hmark, rfl⟩ := he
  have hmetadata : Option.Rel (· = ·) e.requestMetadata (e.under mark).requestMetadata := by
    show Option.Rel (· = ·) e.requestMetadata e.requestMetadata
    cases e.requestMetadata with
    | none => exact .none
    | some metadata => exact .some rfl
  refine .same (.require hmetadata (h.error (.named rfl (h.id hmark)))) fun metadata => ?_
  refine .same (h.ledger .schema credential.schema) fun _ => ?_
  refine .same (h.ledger .credentialDefinition credential.definition) fun definition => ?_
  refine .same (h.registry credential.registry) fun registry => ?_
  refine .same (h.call .linkSecretId rfl) fun linkSecret => ?_
  refine .same (h.call (.processCredential payload metadata linkSecret definition registry) rfl)
    fun id => ?_
  exact .pure (.moving ⟨mark, hmark, rfl⟩ hi.message)

theorem Holder.acknowledge_related (hid : P.id n a b) :
    Related P n (Change.Paired P n) (Holder.acknowledge P.version a)
      (Holder.acknowledge P.version' b) :=
  h.owned hid .holder .credentialReceived fun _ _ he =>
    .map (h.reply he) fun _ _ _ _ hheader => .moving he (h.ack hheader)

theorem Holder.decline_related (hid : P.id n a b) (reason : Option String) :
    Related P n (Change.Paired P n) (Holder.decline P.version a reason)
      (Holder.decline P.version' b reason) := by
  refine h.owned hid .holder .offerReceived fun e e' he => ?_
  have hreply := h.reply he
  obtain ⟨mark, hmark, rfl⟩ := he
  exact .map hreply fun m header header' _ hheader =>
    .moving ⟨mark, hmark, rfl⟩ (h.problemReport _ _ hheader)

theorem Issuer.receiveProposal_related (hi : i.Paired P n i') :
    Related P n (Change.Paired P n) (Issuer.receiveProposal P.version i)
      (Issuer.receiveProposal P.version' i') := by
  have hreads := h.reads hi.message
  simp only [Issuer.receiveProposal, hi.threadId, hi.parentThreadId, hreads.kind, ne_eq,
    hreads.family, Version.attributes, hreads.preview]
  split
  · exact .fail (hreads.fault .wrongProposal fun _ _ => rfl)
  · refine .same (.lift (Inbound.ready_related h hi)) fun connection => ?_
    refine .same (.lift hreads.definition) fun definition => ?_
    refine .step (h.onThread hi.thread (some .issuer) none) fun found found' hfound => ?_
    cases hfound with
    | some he =>
      obtain ⟨mark, hmark, rfl⟩ := he
      exact .fail (h.error (.named rfl (h.id hmark)))
    | none =>
      refine .map (h.newRecord .issuer .proposalReceived connection.id hi.thread) ?_
      rintro m e _ hm ⟨mark, hmark, rfl⟩
      exact .opening ⟨mark, hmark, rfl⟩ (h.later hm hi.message)

theorem Issuer.offer_related (starts : P.starts) (connection : Option String) (definition : String)
    (details : OfferDetails) (autoAccept : Option AutoAccept) :
    Related P n (Change.Paired P n) (Issuer.offer P.version connection definition details autoAccept)
      (Issuer.offer P.version' connection definition details autoAccept) := by
  refine .same (h.offerPayload definition) fun payload => ?_
  refine .same h.configured fun config => ?_
  refine .step (h.newThread starts) fun thread thread' hthread =>
    .map (h.newRecord .issuer .offerSent _ hthread) ?_
  rintro m e _ - ⟨mark, hmark, rfl⟩
  exact .opening ⟨mark, hmark, rfl⟩ (h.offer payload details (h.opening starts hthread))

theorem Issuer.answerProposal_related (hid : P.id n a b) (definition : Option String)
    (details : OfferDetails) (autoAccept : Option AutoAccept) :
    Related P n (Change.Paired P n)
      (Issuer.answerProposal P.version a definition details autoAccept)
      (Issuer.answerProposal P.version' b definition details autoAccept) := by
  refine h.owned hid .issuer .proposalReceived fun e e' he => ?_
  obtain ⟨mark, hmark, rfl⟩ := he
  rw [show (e.under mark).definition = e.definition from rfl]
  cases definition.or e.definition with
  | none => exact .fail (h.error (.named rfl (h.id hmark)))
  | some definition =>
    refine .same (h.offerPayload definition) fun payload => ?_
    refine .map (h.reply ⟨mark, hmark, rfl⟩) fun m header header' _ hheader => ?_
    exact .moving ⟨mark, hmark, rfl⟩ (h.offer payload _ hheader)

theorem Issuer.receiveRequest_related (hi : i.Paired P n i') :
    Related P n (Change.Paired P n) (Issuer.receiveRequest P.version i)
      (Issuer.receiveRequest P.version' i') := by
  have hreads := h.reads hi.message
  simp only [Issuer.receiveRequest, hi.threadId]
  refine .same (.lift (hreads.payload .request (by decide))) fun _ => ?_
  refine .same (.lift (Inbound.ready_related h hi)) fun connection => ?_
  refine .step (h.bound hi.thread (some .issuer) (some connection.id)) fun found found' hfound => ?_
  cases hfound with
  | some he =>
    refine .same (.lift (h.assertVersion he)) fun _ => ?_
    refine .same (.lift (h.assertState he [.offerSent])) fun _ => ?_
    obtain ⟨mark, hmark, rfl⟩ := he
    exact .pure (.moving ⟨mark, hmark, rfl⟩ hi.message)
  | none =>
    refine .step (h.onThread hi.thread (some .issuer) none) fun found found' hfound => ?_
    cases hfound with
    | some _ => exact .fail (h.self rfl)
    | none =>
      exact .map (h.newRecord .issuer .requestReceived connection.id hi.thread)
        fun m e e' hm he => .opening he (h.later hm hi.message)

theorem Issuer.issue_related (hid : P.id n a b) (hoffer : P.readable .offer)
    (hrequest : P.readable .request) (comment : Option String) (autoAccept : Option AutoAccept) :
    Related P n (Change.Paired P n) (Issuer.issue P.version a comment autoAccept)
      (Issuer.issue P.version' b comment autoAccept) := by
  refine h.owned hid .issuer .requestReceived fun e e' he => ?_
  refine .step (h.message he hoffer) fun offer offer' hoffer => ?_
  refine .step (h.message he hrequest) fun request request' hrequest => ?_
  refine .same (.lift ((h.reads hoffer).payload .offer (by decide))) fun offerPayload => ?_
  refine .same (.lift ((h.reads hrequest).payload .request (by decide))) fun requestPayload => ?_
  refine .same (.lift (h.offerTerms offerPayload)) fun terms => ?_
  refine .same (h.call (.definition terms.definition) rfl) fun definition => ?_
  refine .same (h.call (.revocation terms.definition) rfl) fun revocation => ?_
  obtain ⟨mark, hmark, rfl⟩ := he
  refine .same
    (h.call (.createCredential definition offerPayload requestPayload e.claims revocation) rfl)
    fun credential => ?_
  exact .map (h.reply ⟨mark, hmark, rfl⟩) fun m header header' _ hheader =>
    .moving ⟨mark, hmark, rfl⟩ (h.issue credential comment hheader hoffer)

theorem Issuer.receiveAck_related (hi : i.Paired P n i') :
    Related P n (Change.Paired P n) (Issuer.receiveAck P.version i)
      (Issuer.receiveAck P.version' i') := by
  have hreads := h.reads hi.message
  simp only [Issuer.receiveAck, hi.threadId, hreads.kind, ne_eq, hreads.family,
    Inbound.connectionId, hi.connection]
  split
  · exact .fail (hreads.fault .wrongAck fun _ _ => rfl)
  · refine .step (h.onThread hi.thread (some .issuer) _) fun found found' hfound => ?_
    refine .step (.require hfound (h.self rfl)) fun e e' he => ?_
    refine .same (.lift (h.assertVersion he)) fun _ => ?_
    exact .same (.lift (h.assertState he [.credentialIssued])) fun _ =>
      .pure (.moving he hi.message)

theorem receiveReport_related (hi : i.Paired P n i') :
    Related P n (Change.Paired P n) (receiveReport P.version i) (receiveReport P.version' i') := by
  have hreads := h.reads hi.message
  simp only [receiveReport, hi.threadId, hreads.comment, Inbound.connectionId,
    hi.connection]
  refine .step (h.bound hi.thread none _) fun found found' hfound => ?_
  refine .step (.require hfound (h.self rfl)) fun e e' he => ?_
  refine .same (.lift (h.assertVersion he)) fun _ => .same (.lift (h.assertOpen he)) fun _ => ?_
  obtain ⟨mark, hmark, rfl⟩ := he
  exact .pure (.moving ⟨mark, hmark, rfl⟩ hi.message)

theorem Operation.plan_related {operation operation' : Operation}
    (paired : operation.Paired P n operation') :
    Related P n (Change.Paired P n) (operation.plan P.version) (operation'.plan P.version') := by
  cases paired with
  | propose starts connection proposal autoAccept =>
    exact Holder.propose_related h starts connection proposal autoAccept
  | offer starts connection definition details autoAccept =>
    exact Issuer.offer_related h starts connection definition details autoAccept
  | answerProposal hid definition details autoAccept =>
    exact Issuer.answerProposal_related h hid definition details autoAccept
  | request hid hoffer did autoAccept => exact Holder.request_related h hid hoffer did autoAccept
  | issue hid hoffer hrequest comment autoAccept =>
    exact Issuer.issue_related h hid hoffer hrequest comment autoAccept
  | acknowledge hid => exact Holder.acknowledge_related h hid
  | decline hid reason => exact Holder.decline_related h hid reason
  | receive kind hi =>
    cases kind with
    | propose => exact Issuer.receiveProposal_related h hi
    | offer => exact Holder.receiveOffer_related h hi
    | request => exact Issuer.receiveRequest_related h hi
    | issue => exact Holder.receiveCredential_related h hi
    | ack => exact Issuer.receiveAck_related h hi
    | problemReport => exact receiveReport_related h hi

end Related

namespace Action

-- The two actions end in related ways at a later stage, and leave related worlds behind.
def Related {α β : Type} (P : Pairing ι) (n : ι) (R : ι → α → β → Prop) (x : Action α)
    (y : Action β) : Prop :=
  ∀ ⦃w w' : World⦄, P.stores n w.stores w'.stores → P.journal n w.journal w'.journal →
    ∃ m, n ≤ m ∧ P.stores m (x P.env w).2.stores (y P.env' w').2.stores ∧
      P.journal m (x P.env w).2.journal (y P.env' w').2.journal ∧
      Concur (P.error m) (R m) (x P.env w).1 (y P.env' w').1

namespace Related

variable {α β γ δ : Type} {x : Action α} {y : Action β} {R : ι → α → β → Prop}
  {S : ι → γ → δ → Prop}

theorem pure {a : α} {b : β} (h : R n a b) : Related P n R (pure a) (pure b) :=
  fun _ _ hs hj => ⟨n, le_refl n, hs, hj, .ok h⟩

theorem lift {R : α → β → Prop} {x : Except Error α} {y : Except Error β}
    (h : Concur (P.error n) R x y) : Related P n (Still n R) (liftM x) (liftM y) :=
  fun _ _ hs hj => ⟨n, le_refl n, hs, hj, h.imp (fun _ _ => id) fun _ _ hab => ⟨rfl, hab⟩⟩

theorem bind {f : α → Action γ} {g : β → Action δ} (hx : Related P n R x y)
    (hf : ∀ m a b, n ≤ m → R m a b → Related P m S (f a) (g b)) :
    Related P n S (x >>= f) (y >>= g) := by
  intro w w' hs hj
  obtain ⟨m, hm, hstores, hjournal, hconcur⟩ := hx hs hj
  rw [bind_apply, bind_apply]
  rcases hxrun : x P.env w with ⟨result, between⟩
  rcases hyrun : y P.env' w' with ⟨result', between'⟩
  rw [hxrun, hyrun] at hstores hjournal hconcur
  cases hconcur with
  | ok hab =>
    obtain ⟨l, hl, hrest⟩ := hf m _ _ hm hab hstores hjournal
    exact ⟨l, le_trans hm hl, hrest⟩
  | error hxy => exact ⟨m, hm, hstores, hjournal, .error hxy⟩

theorem change {f g : Stores → Stores}
    (h : ∀ s s', P.stores n s s' → P.stores n (f s) (g s')) :
    Related P n (Still n fun _ _ => True) (change f) (change g) :=
  fun _ _ hs hj => ⟨n, le_refl n, h _ _ hs, hj, .ok ⟨rfl, trivial⟩⟩

-- What follows is at the same stage.
theorem step {R : α → β → Prop} {f : α → Action γ} {g : β → Action δ}
    (hx : Related P n (Still n R) x y) (hf : ∀ a b, R a b → Related P n S (f a) (g b)) :
    Related P n S (x >>= f) (y >>= g) := by
  refine hx.bind ?_
  rintro m a b - ⟨rfl, hab⟩
  exact hf a b hab

end Related

end Action

-- The message and the record that an operation has led to, and an answer that is to be sent.
def Outcome.Paired (P : Pairing ι) (n : ι) (o o' : Outcome) : Prop :=
  P.message n o.message o'.message ∧ P.Record n o.record o'.record

def Outbound.Paired (P : Pairing ι) (n : ι) (o o' : Outbound) : Prop :=
  P.message n o.message o'.message ∧ o'.connection = o.connection

-- What is written leaves the stores related, so that one operation can follow another.
structure Pairing.Lasting (P : Pairing ι) : Prop where
  sound : ∀ n, P.Sound n
  readable : ∀ kind, P.readable kind
  stores : ∀ {n m s s'}, n ≤ m → P.stores n s s' → P.stores m s s'
  mark : ∀ {n m a b}, n ≤ m → P.mark n a b → P.mark m a b
  now : ∀ {n}, Inquiry.Related P n (Still n fun t t' => ∀ {a b}, P.mark n a b →
    P.mark n { a with updatedAt := some t } { b with updatedAt := some t' }) Inquiry.now Inquiry.now
  save : ∀ {n a b m m'} party, P.id n a b → P.message n m m' →
    Inquiry.Related P n (Still n fun _ _ => True) (Inquiry.call (.saveMessage a party m))
      (Inquiry.call (.saveMessage b party m'))
  saved : ∀ {n a b m m' s s'} party, P.id n a b → P.message n m m' → P.stores n s s' →
    P.stores n (s.putMessage ⟨a, m.type, some party, m.toJson⟩)
      (s'.putMessage ⟨b, m'.type, some party, m'.toJson⟩)
  put : ∀ {n e e'}, P.Record n e e' → Inquiry.Related P n (Still n fun _ _ => True)
    (Inquiry.call (.put e)) (Inquiry.call (.put e'))
  kept : ∀ {n e e' s s'}, P.Record n e e' → P.stores n s s' → P.stores n (s.put e) (s'.put e')
  publish : ∀ {n e e' j j'} previous, P.Record n e e' → P.journal n j j' →
    P.journal n (j.asked (.publish ⟨e, previous⟩)) (j'.asked (.publish ⟨e', previous⟩))
  published : ∀ {n e e' s s'} previous, P.Record n e e' → P.stores n s s' →
    P.stores n (s.publish ⟨e, previous⟩) (s'.publish ⟨e', previous⟩)

namespace Pairing.Lasting

variable (h : P.Lasting)
include h

theorem ofInquiry {α β : Type} {R : ι → α → β → Prop} {x : Inquiry α} {y : Inquiry β}
    (hx : Inquiry.Related P n R x y) :
    Action.Related P n R (liftM x : Action α) (liftM y : Action β) := by
  intro w w' hs hj
  obtain ⟨m, hm, hjournal, hconcur⟩ := hx hs hj
  exact ⟨m, hm, h.stores hm hs, hjournal, hconcur⟩

theorem record {m : ι} {e e' : Exchange} (hm : n ≤ m) (he : P.Record n e e') : P.Record m e e' := by
  obtain ⟨mark, hmark, rfl⟩ := he
  exact ⟨mark, h.mark hm hmark, rfl⟩

theorem id {e e' : Exchange} (he : P.Record n e e') : P.id n e.id e'.id := by
  obtain ⟨mark, hmark, rfl⟩ := he
  exact (h.sound n).id hmark

theorem advance {e e' : Exchange} (he : P.Record n e e') (next : State) {t t' : Timestamp}
    (ht : ∀ {a b}, P.mark n a b →
      P.mark n { a with updatedAt := some t } { b with updatedAt := some t' }) :
    Concur (P.error n) (P.Record n) (e.advance next t) (e'.advance next t') := by
  obtain ⟨mark, hmark, rfl⟩ := he
  show Concur _ _ _ (ite (e.state.isTerminal ∨ next.rank ≤ e.state.rank) _ _)
  unfold Exchange.advance
  split
  · exact .error ((h.sound n).error (.named rfl ((h.sound n).id hmark)))
  · exact .ok ⟨_, ht hmark, rfl⟩

section Writing

variable {e e' : Exchange} (he : P.Record n e e')

theorem saveMessage {a b : String} {m m' : Message} (party : Party) (hid : P.id n a b)
    (hm : P.message n m m') :
    Action.Related P n (Still n fun _ _ => True) (Action.saveMessage a party m)
      (Action.saveMessage b party m') :=
  .step (h.ofInquiry (h.save party hid hm)) fun _ _ _ => .change fun _ _ => h.saved party hid hm

include he

theorem putRecord : Action.Related P n (Still n fun _ _ => True) (Action.put e) (Action.put e') :=
  .step (h.ofInquiry (h.put he)) fun _ _ _ => .change fun _ _ => h.kept he

theorem replace :
    Action.Related P n (Still n fun _ _ => True) (Action.replace e) (Action.replace e') :=
  .step (h.ofInquiry ((h.sound n).record (h.id he))) fun _ _ _ => h.putRecord he

theorem announce (previous : Option State) :
    Action.Related P n (Still n fun _ _ => True) (Action.publish ⟨e, previous⟩)
      (Action.publish ⟨e', previous⟩) :=
  fun _ _ hs hj => ⟨n, le_refl n, h.published previous he hs, h.publish previous he hj,
    .ok ⟨rfl, trivial⟩⟩

end Writing

-- Whatever stops a change in one run stops it at the same place in the other.
theorem commit {m : ι} {c c' : Change} (hm : n ≤ m) (hc : c.Paired P n m c') :
    Action.Related P m P.Record c.commit c'.commit := by
  cases hc with
  | opening he hmessage =>
    refine .step (h.saveMessage _ (h.id he) hmessage) fun _ _ _ =>
      .step (h.putRecord he) fun _ _ _ => ?_
    exact .step (h.announce he none) fun _ _ _ => .pure he
  | @moving e e' next party a b he hmessage =>
    have hrecord := h.record hm he
    have hstate : e'.state = e.state := by
      obtain ⟨mark, -, rfl⟩ := he
      rfl
    refine .step (h.saveMessage _ (h.id hrecord) hmessage) fun _ _ _ => ?_
    refine .step (h.ofInquiry h.now) fun t t' ht => ?_
    refine .step (.lift (h.advance hrecord next ht)) fun moved moved' hmoved => ?_
    refine .step (h.replace hmoved) fun _ _ _ => ?_
    show Action.Related P m _ (Action.publish ⟨_, some e.state⟩ >>= _)
      (Action.publish ⟨_, some e'.state⟩ >>= _)
    rw [hstate]
    exact .step (h.announce hmoved _) fun _ _ _ => .pure hmoved

theorem run {operation operation' : Operation} (paired : operation.Paired P n operation') :
    Action.Related P n (Outcome.Paired P) (operation.run P.version) (operation'.run P.version') := by
  refine .bind (h.ofInquiry (Operation.plan_related (h.sound n) paired)) fun m c c' hm hc => ?_
  have hmessage : P.message m c.message c'.message := by
    cases hc with
    | opening _ hmessage | moving _ hmessage => exact hmessage
  refine .bind (h.commit hm hc) fun l e e' hl he => .pure ⟨?_, he⟩
  exact (h.sound m).later hl hmessage

section Dispatch

variable {i i' : Inbound} {e e' : Exchange}

theorem followUp? (default : AutoAccept) (kind : Kind) (he : P.Record n e e') :
    Option.Rel (Operation.Paired P n) (followUp? default kind e) (followUp? default kind e') := by
  have hid := h.id he
  obtain ⟨mark, hmark, rfl⟩ := he
  show Option.Rel _ _ (ite (e.policy default = .always) _ _)
  unfold CredentialIssuance.followUp?
  split
  · cases kind with
    | propose =>
      show Option.Rel _ (ite _ _ _) (ite (e.definition.isSome = true) _ _)
      split
      · exact .some (.answerProposal hid ..)
      · exact .none
    | offer => exact .some (.request hid (h.readable _) ..)
    | request => exact .some (.issue hid (h.readable _) (h.readable _) ..)
    | issue => exact .some (.acknowledge hid)
    | ack | problemReport => exact .none
  · exact .none

omit h in
theorem address (hP : P.Sound n) (connection : i'.connection = i.connection)
    (he : P.Record n e e') :
    Inquiry.Related P n (Still n (· = ·)) (address i e) (address i' e') := by
  obtain ⟨mark, -, rfl⟩ := he
  unfold CredentialIssuance.address
  rw [connection]
  cases i.connection with
  | some connection => exact .pure ⟨rfl, rfl⟩
  | none => exact hP.call (.connection e.connectionId) rfl

theorem dispatch (hi : i.Paired P n i') (version : i.message.version = P.version)
    (version' : i'.message.version = P.version') :
    Action.Related P n (fun m => Option.Rel (Outbound.Paired P m)) i.dispatch i'.dispatch := by
  have hkind : i'.message.kind = i.message.kind := ((h.sound n).reads hi.message).kind
  unfold Inbound.dispatch
  simp only [version, version', hkind]
  refine .bind (h.run (.receive i.message.kind hi)) fun m received received' hm hreceived => ?_
  refine .step (h.ofInquiry (h.sound m).configured) ?_
  rintro config _ rfl
  have hfollows := h.followUp? config.autoAccept i.message.kind hreceived.2
  generalize CredentialIssuance.followUp? _ _ received.record = follow at hfollows ⊢
  generalize CredentialIssuance.followUp? _ _ received'.record = follow' at hfollows ⊢
  cases hfollows with
  | none => exact .pure .none
  | some paired =>
    refine .bind (h.run paired) fun l answer answer' _ hanswer => ?_
    refine .step (h.ofInquiry (address (h.sound l) hi.connection hanswer.2)) ?_
    rintro connection _ rfl
    exact .pure (.some ⟨hanswer.1, rfl⟩)

end Dispatch

end Pairing.Lasting

end CredentialIssuance
