import CredentialIssuance.Proofs.Commit
import CredentialIssuance.Proofs.Family
import CredentialIssuance.Proofs.Holder
import CredentialIssuance.Proofs.Issuer
import CredentialIssuance.Proofs.Transition

namespace CredentialIssuance

-- What two records have in common if one of them is a later form of the other.
structure Exchange.SameOrigin (e e' : Exchange) : Prop where
  id : e'.id = e.id
  threadId : e'.threadId = e.threadId
  role : e'.role = e.role
  version : e'.version = e.version
  parentThreadId : e'.parentThreadId = e.parentThreadId
  createdAt : e'.createdAt = e.createdAt

theorem Exchange.SameOrigin.trans {a b c : Exchange} (first : a.SameOrigin b)
    (second : b.SameOrigin c) : a.SameOrigin c :=
  ⟨second.id.trans first.id, second.threadId.trans first.threadId, second.role.trans first.role,
    second.version.trans first.version, second.parentThreadId.trans first.parentThreadId,
    second.createdAt.trans first.createdAt⟩

-- An operation may edit everything else.
theorem Exchange.SameOrigin.edit (e : Exchange) (connection : String) (state : State)
    (autoAccept : Option AutoAccept) (attributes : List Attribute)
    (definition requestMetadata : Option String) (credentials : List CredentialBinding)
    (errorMessage : Option String) (updatedAt : Option Timestamp) :
    e.SameOrigin { e with
      connectionId := connection
      state := state
      autoAccept := autoAccept
      attributes := attributes
      definition := definition
      requestMetadata := requestMetadata
      credentials := credentials
      errorMessage := errorMessage
      updatedAt := updatedAt } :=
  ⟨rfl, rfl, rfl, rfl, rfl, rfl⟩

namespace Operation

-- The kind of the message that the operation sends or takes in.
def kind : Operation → Kind
  | .propose .. => .propose
  | .offer .. | .answerProposal .. => .offer
  | .request .. => .request
  | .issue .. => .issue
  | .acknowledge .. => .ack
  | .decline .. => .problemReport
  | .receive kind _ => kind

def party : Operation → Party
  | .receive .. => .receiver
  | _ => .sender

-- The connection an operation names, or on which the message it takes in arrived.
def connection? : Operation → Option String
  | .propose connection .. => some connection
  | .offer connection .. => connection
  | .receive _ inbound => inbound.connectionId
  | _ => none

-- The record that an operation names.
def exchange? : Operation → Option String
  | .answerProposal exchange .. | .request exchange .. | .issue exchange .. => some exchange
  | .acknowledge exchange | .decline exchange _ => some exchange
  | _ => none

-- The message of an operation is the one it takes in, or one of its own kind.
def Carries (operation : Operation) (m : Message) : Prop :=
  match operation with
  | .receive _ inbound => m = inbound.message
  | operation => m.kind = operation.kind

theorem Carries.kind {operation : Operation} {m : Message} (h : operation.Carries m)
    (own : operation.party = .sender) : m.kind = operation.kind := by
  cases operation with
  | receive kind inbound => cases own
  | _ => exact h

end Operation

-- A record that an operation opens: under a fresh identifier, on a fresh thread if it sends the
-- first message, and otherwise only if no record of its role answers for the thread already.
structure Opens (env : Environment) (stores : Stores) (journal after : Journal)
    (operation : Operation) (e : Exchange) : Prop where
  id : e.id = env.exchangeName journal.exchanges
  drawn : after.exchanges = journal.exchanges + 1
  connection : e.role = .holder → operation.connection? = some e.connectionId
  started : operation.party = .sender →
    e.threadId = env.threadName journal.threads ∧ after.threads = journal.threads + 1
  alone : operation.party = .receiver → ∀ other ∈ stores.records.entries,
    other.threadId = e.threadId → other.role = e.role →
      e.role = .holder ∧ other.connectionId ≠ e.connectionId

-- A record that an operation moves is still in the state in which it is stored, and stays what it
-- was in all that makes it this record. A holder's stays on its connection.
structure Moves (stores : Stores) (e : Exchange) : Prop where
  stored : ∃ old, stores.record? e.id = some old ∧ old.SameOrigin e ∧ old.state = e.state ∧
    (e.role = .holder → old.connectionId = e.connectionId)

-- A plan that succeeds opens a record or moves a stored one, and in both cases it is a step of the
-- protocol.
structure Planned (env : Environment) (stores : Stores) (journal after : Journal)
    (version : Version) (operation : Operation) (c : Change) : Prop where
  version : c.record.version = version
  party : c.party = operation.party
  carries : operation.Carries c.message
  thread : c.message.threadId = c.record.threadId
  transition :
    Transition c.record.role operation.party operation.kind c.previous c.target
  opens : c.next = none → Opens env stores journal after operation c.record
  moves : ∀ next ∈ c.next, Moves stores c.record

theorem Exchange.answers_of_role {e : Exchange} {thread : String} {role : Role}
    (hthread : e.threadId = thread) (hrole : e.role = role) : e.Answers thread (some role) none :=
  ⟨hthread, fun _ hr => hrole.trans (Option.some.inj hr), nofun⟩

theorem Stores.record?_self {s : Stores} {id : String} {e : Exchange}
    (h : s.record? id = some e) : s.record? e.id = some e := by
  obtain ⟨hmem, rfl⟩ := (s.records.get?_eq_some_iff id e).1 h
  exact h

namespace Planned

variable {env : Environment} {stores : Stores} {journal after : Journal} {version : Version}
  {operation : Operation} {e : Exchange} {m : Message} {role : Role}

theorem opening (hversion : e.version = version) (hrole : e.role = role)
    (hcarries : operation.Carries m) (hthread : m.threadId = e.threadId)
    (htransition : Transition role operation.party operation.kind none e.state)
    (hopens : Opens env stores journal after operation e) :
    Planned env stores journal after version operation (.opening e operation.party m) where
  version := hversion
  party := rfl
  carries := hcarries
  thread := hthread
  transition := by
    rw [← hrole] at htransition
    exact htransition
  opens := fun _ => hopens
  moves := fun _ hnext => by cases hnext

theorem moving {stored : Exchange} {old next : State} (hversion : e.version = version)
    (hrole : e.role = role) (hcarries : operation.Carries m) (hthread : m.threadId = e.threadId)
    (htransition : Transition role operation.party operation.kind (some old) next)
    (hold : e.state = old) (hstored : stores.record? e.id = some stored)
    (horigin : stored.SameOrigin e) (hstate : stored.state = e.state)
    (hconnection : e.role = .holder → stored.connectionId = e.connectionId) :
    Planned env stores journal after version operation (.moving e next operation.party m) where
  version := hversion
  party := rfl
  carries := hcarries
  thread := hthread
  transition := by
    rw [← hrole, ← hold] at htransition
    exact htransition
  opens := fun hnone => by cases hnone
  moves := fun _ _ => ⟨stored, hstored, horigin, hstate, hconnection⟩

end Planned

theorem Operation.plan_ok {env : Environment} {stores : Stores} {journal after : Journal}
    {version : Version} {operation : Operation} {c : Change}
    (h : operation.plan version env stores journal = (.ok c, after)) :
    Planned env stores journal after version operation c := by
  cases operation with
  | propose connection proposal autoAccept =>
    obtain ⟨now, rfl, hthreads, hexchanges⟩ := Holder.propose_ok h
    obtain ⟨hkind, hheader⟩ := version.propose_is (.opening (env.threadName journal.threads)) proposal
    exact .opening rfl rfl hkind (Message.threadId_opening hheader) .sendProposal
      ⟨rfl, hexchanges, fun _ => rfl, fun _ => ⟨rfl, hthreads⟩, nofun⟩
  | offer connection definition details autoAccept =>
    obtain ⟨payload, now, rfl, hthreads, hexchanges⟩ := Issuer.offer_ok h
    obtain ⟨hkind, hheader⟩ :=
      version.offer_is (.opening (env.threadName journal.threads)) payload details
    exact .opening rfl rfl hkind (Message.threadId_opening hheader) .sendOffer
      ⟨rfl, hexchanges, nofun, fun _ => ⟨rfl, hthreads⟩, nofun⟩
  | answerProposal exchange definition details autoAccept =>
    obtain ⟨stored, offered, payload, header, hstored, hversion, hrole, hstate, -, rfl⟩ :=
      Issuer.answerProposal_ok h
    have hself := Stores.record?_self hstored
    obtain ⟨hkind, hheader⟩ := version.offer_is (.reply header stored.threadId) payload _
    exact .moving hversion hrole hkind (Message.threadId_reply hheader) .answerProposal hstate
      hself (.edit ..) rfl fun _ => rfl
  | request exchange did autoAccept =>
    obtain ⟨stored, offer, payload, terms, header, answer, hstored, hversion, hrole, hstate, -, -, -,
      rfl⟩ := Holder.request_ok h
    have hself := Stores.record?_self hstored
    obtain ⟨hkind, hheader⟩ :=
      version.request_is (.reply header stored.threadId) answer.request offer
    exact .moving hversion hrole hkind (Message.threadId_reply hheader) .sendRequest hstate
      hself (.edit ..) rfl fun _ => rfl
  | issue exchange comment autoAccept =>
    obtain ⟨stored, offer, request, _, _, terms, credential, header, hstored, hversion, hrole, hstate,
      -, -, -, -, -, rfl⟩ := Issuer.issue_ok h
    have hself := Stores.record?_self hstored
    obtain ⟨hkind, hheader⟩ :=
      version.issue_is (.reply header stored.threadId) credential comment offer
    exact .moving hversion hrole hkind (Message.threadId_reply hheader) .sendCredential hstate
      hself (.edit ..) rfl fun _ => rfl
  | acknowledge exchange =>
    obtain ⟨stored, header, hstored, hversion, hrole, hstate, rfl⟩ := Holder.acknowledge_ok h
    have hself := Stores.record?_self hstored
    exact .moving hversion hrole rfl (Message.threadId_reply rfl) .sendAck hstate
      hself (.edit ..) rfl fun _ => rfl
  | decline exchange reason =>
    obtain ⟨stored, header, hstored, hversion, hrole, hstate, rfl⟩ := Holder.decline_ok h
    have hself := Stores.record?_self hstored
    exact .moving hversion hrole rfl (Message.threadId_reply rfl) .decline hstate
      hself (.edit ..) rfl fun _ => rfl
  | receive kind inbound =>
    cases kind with
    | propose =>
      obtain ⟨-, -, connection, definition, now, -, -, hnone, rfl, hexchanges⟩ :=
        Issuer.receiveProposal_ok h
      refine .opening rfl rfl rfl rfl .receiveProposal ⟨rfl, hexchanges, nofun, nofun, ?_⟩
      intro _ other hother hthread hrole
      exact absurd (Exchange.answers_of_role hthread hrole) (hnone other hother)
    | offer =>
      obtain ⟨payload, offer, -, -, ⟨stored, hstored, hanswers, hversion, hstate, rfl⟩ |
        ⟨connection, now, hready, hnone, rfl, hexchanges⟩⟩ := Holder.receiveOffer_ok h
      · exact .moving hversion (hanswers.2.1 _ rfl) rfl hanswers.1.symm .receiveAnswer hstate
          hstored (.edit ..) rfl fun _ => rfl
      · have hconnection : inbound.connectionId = some connection.id := by
          rw [Inbound.connectionId, (Inbound.ready_ok hready).1]
          rfl
        refine .opening rfl rfl rfl rfl .receiveOffer
          ⟨rfl, hexchanges, fun _ => hconnection, nofun, ?_⟩
        intro _ other hother hthread hrole
        have hanswers := Exchange.answers_of_role hthread hrole
        refine ⟨rfl, fun hsame => hnone other hother ⟨hthread, hanswers.2.1, ?_⟩⟩
        intro c hc
        rw [hconnection] at hc
        exact hsame.trans (Option.some.inj hc)
    | request =>
      obtain ⟨payload, connection, -, -, ⟨stored, hstored, hanswers, -, hversion, hstate, rfl⟩ |
        ⟨now, hnone, rfl, hexchanges⟩⟩ := Issuer.receiveRequest_ok h
      · have hrole : stored.role = .issuer := hanswers.2.1 _ rfl
        exact .moving hversion hrole rfl hanswers.1.symm .receiveRequest hstate hstored
          (.edit ..) rfl fun hholder => by cases hrole.symm.trans hholder
      · refine .opening rfl rfl rfl rfl .openByRequest ⟨rfl, hexchanges, nofun, nofun, ?_⟩
        intro _ other hother hthread hrole
        exact absurd (Exchange.answers_of_role hthread hrole) (hnone other hother)
    | issue =>
      obtain ⟨stored, _, _, _, _, hstored, -, -, hanswers, hversion, hstate, -, rfl⟩ :=
        Holder.receiveCredential_ok h
      exact .moving hversion (hanswers.2.1 _ rfl) rfl hanswers.1.symm .receiveCredential hstate
        hstored (.edit ..) rfl fun _ => rfl
    | ack =>
      obtain ⟨-, -, stored, hstored, hanswers, hversion, hstate, rfl⟩ := Issuer.receiveAck_ok h
      exact .moving hversion (hanswers.2.1 _ rfl) rfl hanswers.1.symm .receiveAck hstate hstored
        (.edit ..) rfl fun _ => rfl
    | problemReport =>
      obtain ⟨stored, hstored, hanswers, -, hversion, hopen, rfl⟩ := receiveReport_ok h
      exact .moving hversion rfl rfl hanswers.1.symm (.receiveReport hopen) rfl hstored
        (.edit ..) rfl fun _ => rfl

-- An operation that names a record moves that record and opens none.
theorem Operation.plan_named {env : Environment} {stores : Stores} {journal after : Journal}
    {version : Version} {operation : Operation} {id : String} {c : Change}
    (named : operation.exchange? = some id)
    (h : operation.plan version env stores journal = (.ok c, after)) :
    c.record.id = id ∧ ∃ next, c.next = some next := by
  have hid : ∀ e, stores.record? id = some e → e.id = id := fun e hstored =>
    ((stores.records.get?_eq_some_iff id e).1 hstored).2
  cases operation with
  | answerProposal exchange definition details autoAccept =>
    cases named
    obtain ⟨stored, _, _, _, hstored, -, -, -, -, rfl⟩ := Issuer.answerProposal_ok h
    exact ⟨hid stored hstored, _, rfl⟩
  | request exchange did autoAccept =>
    cases named
    obtain ⟨stored, _, _, _, _, _, hstored, -, -, -, -, -, -, rfl⟩ := Holder.request_ok h
    exact ⟨hid stored hstored, _, rfl⟩
  | issue exchange comment autoAccept =>
    cases named
    obtain ⟨stored, _, _, _, _, _, _, _, hstored, -, -, -, -, -, -, -, -, rfl⟩ := Issuer.issue_ok h
    exact ⟨hid stored hstored, _, rfl⟩
  | acknowledge exchange =>
    cases named
    obtain ⟨stored, _, hstored, -, -, -, rfl⟩ := Holder.acknowledge_ok h
    exact ⟨hid stored hstored, _, rfl⟩
  | decline exchange reason =>
    cases named
    obtain ⟨stored, _, hstored, -, -, -, rfl⟩ := Holder.decline_ok h
    exact ⟨hid stored hstored, _, rfl⟩
  | _ => cases named

namespace Inquiry.Reads

theorem offerPayload (definition : String) : Reads (Issuer.offerPayload definition) :=
  .bind (call rfl) fun _ => call rfl

theorem requesterDid (e : Exchange) (did : Option String) : Reads (Holder.requesterDid e did) := by
  cases did with
  | some did => exact pure _
  | none => exact .bind (call rfl) fun _ => pure _

theorem registry (id : Option String) : Reads (Holder.registry id) := by
  cases id with
  | some id => exact .bind (ledger _ _) fun _ => pure _
  | none => exact pure _

-- As `owned_ok`, for a record looked up by its identifier.
theorem owned {α : Type} {f : Exchange → Inquiry α} (hf : ∀ e, Reads (f e)) (id : String)
    (version : Version) (role : Role) (state : State) :
    Reads (do
      let e ← Inquiry.lockedRecord id
      e.assertVersion version
      e.assertRole role
      e.assertState [state]
      f e : Inquiry α) :=
  .bind (lockedRecord id) fun e => .bind (lift _) fun _ => .bind (lift _) fun _ =>
    .bind (lift _) fun _ => hf e

-- What a reply ends with.
theorem replying {α : Type} (thread : String) (f : Header → α) :
    Reads (do return f (← Inquiry.reply thread) : Inquiry α) :=
  .bind (reply thread) fun _ => pure _

end Inquiry.Reads

theorem Operation.plan_reads (version : Version) (operation : Operation) :
    Inquiry.Reads (operation.plan version) := by
  cases operation with
  | propose connection proposal autoAccept =>
    exact .bind .newThread fun _ => .bind (.newRecord _ _ _ _ _) fun _ => .pure _
  | offer connection definition details autoAccept =>
    exact .bind (.offerPayload _) fun _ => .bind .config fun _ => .bind .newThread fun _ =>
      .bind (.newRecord _ _ _ _ _) fun _ => .pure _
  | answerProposal exchange definition details autoAccept =>
    refine .owned (fun e => ?_) exchange version .issuer .proposalReceived
    split
    · exact .fail _
    · exact .bind (.offerPayload _) fun _ => .replying _ _
  | request exchange did autoAccept =>
    refine .owned (fun e => ?_) exchange version .holder .offerReceived
    exact .bind (.message e .offer) fun _ => .bind (.lift _) fun _ => .bind (.lift _) fun _ =>
      .bind (.requesterDid e did) fun _ => .bind (.ledger _ _) fun _ => .bind (.call rfl) fun _ =>
      .bind (.call rfl) fun _ => .replying _ _
  | issue exchange comment autoAccept =>
    refine .owned (fun e => ?_) exchange version .issuer .requestReceived
    exact .bind (.message e .offer) fun _ => .bind (.message e .request) fun _ =>
      .bind (.lift _) fun _ => .bind (.lift _) fun _ => .bind (.lift _) fun _ =>
      .bind (.call rfl) fun _ => .bind (.call rfl) fun _ => .bind (.call rfl) fun _ => .replying _ _
  | acknowledge exchange =>
    exact .owned (fun _ => .replying _ _) exchange version .holder .credentialReceived
  | decline exchange reason =>
    exact .owned (fun _ => .replying _ _) exchange version .holder .offerReceived
  | receive kind inbound =>
    cases kind with
    | propose =>
      simp only [plan, Issuer.receiveProposal]
      split
      · exact .fail _
      · refine .bind (.lift _) fun _ => .bind (.lift _) fun _ => .bind (.onThread _ _ _) fun found => ?_
        split
        · exact .fail _
        · exact .bind (.newRecord _ _ _ _ _) fun _ => .pure _
    | offer =>
      refine .bind (.lift _) fun _ => .bind (.lift _) fun _ => .bind (.onThread _ _ _) fun found => ?_
      split
      · exact .bind (.lift _) fun _ => .bind (.lift _) fun _ => .pure _
      · exact .bind (.lift _) fun _ => .bind (.newRecord _ _ _ _ _) fun _ => .pure _
    | request =>
      refine .bind (.lift _) fun _ => .bind (.lift _) fun _ => .bind (.bound _ _ _) fun found => ?_
      split
      · exact .bind (.lift _) fun _ => .bind (.lift _) fun _ => .pure _
      · refine .bind (.onThread _ _ _) fun other => ?_
        split
        · exact .fail _
        · exact .bind (.newRecord _ _ _ _ _) fun _ => .pure _
    | issue =>
      exact .bind (.lift _) fun _ => .bind (.lift _) fun _ => .bind (.onThread _ _ _) fun _ =>
        .bind (.require _ _) fun _ => .bind (.lift _) fun _ => .bind (.lift _) fun _ =>
        .bind (.require _ _) fun _ => .bind (.ledger _ _) fun _ => .bind (.ledger _ _) fun _ =>
        .bind (.registry _) fun _ => .bind (.call rfl) fun _ => .bind (.call rfl) fun _ => .pure _
    | ack =>
      simp only [plan, Issuer.receiveAck]
      split
      · exact .fail _
      · exact .bind (.onThread _ _ _) fun _ => .bind (.require _ _) fun _ => .bind (.lift _) fun _ =>
          .bind (.lift _) fun _ => .pure _
    | problemReport =>
      exact .bind (.bound _ _ _) fun _ => .bind (.require _ _) fun _ => .bind (.lift _) fun _ =>
        .bind (.lift _) fun _ => .pure _

end CredentialIssuance
