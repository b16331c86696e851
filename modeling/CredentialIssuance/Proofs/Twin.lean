import CredentialIssuance.Agent.Command
import CredentialIssuance.Agent.Response
import CredentialIssuance.Proofs.Proposal
import CredentialIssuance.Proofs.Tandem

namespace CredentialIssuance

open List (Forall₂)

-- Both succeed, with results that are related, or both fail in the same way.
def Alike {α β : Type} (R : α → β → Prop) : Except Error α → Except Error β → Prop :=
  Concur (fun x y => x.kind = y.kind) R

def Exchange.Twin (e e' : Exchange) : Prop := e.version = .v1 ∧ e' = { e with version := .v2 }

-- What is read in a message does not depend on its family, and it is written as it will be read.
structure Message.Twin (m m' : Message) : Prop where
  first : m.version = .v1
  second : m'.version = .v2
  kind : m'.kind = m.kind
  header : m'.header = m.header
  comment : m'.comment = m.comment
  preview : Version.v2.preview m' = Version.v1.preview m
  definition : Alike (· = ·) (Version.v1.proposedDefinition m) (Version.v2.proposedDefinition m')
  payload : ∀ kind ∈ [.offer, .request, .issue],
    Alike (· = ·) (Version.v1.payload m kind) (Version.v2.payload m' kind)
  plain : m.Plain
  plain' : m'.Plain

def Event.Twin (event event' : Event) : Prop :=
  event.exchange.Twin event'.exchange ∧ event'.previous = event.previous

inductive StoredMessage.Twin : StoredMessage → StoredMessage → Prop where
  | saved (exchange : String) (party : Party) {m m' : Message} (h : m.Twin m') :
      Twin ⟨exchange, m.type, some party, m.toJson⟩ ⟨exchange, m'.type, some party, m'.toJson⟩

structure Stores.Twin (s s' : Stores) : Prop where
  records : Forall₂ Exchange.Twin s.records.entries s'.records.entries
  messages : Forall₂ StoredMessage.Twin s.messages.entries s'.messages.entries
  events : Forall₂ Event.Twin s.events s'.events

inductive Call.Twin : Call → Call → Prop where
  | same {c : Call} (h : c.tellsFamily = false) : Twin c c
  | put {e e' : Exchange} (h : e.Twin e') : Twin (.put e) (.put e')
  | findMessage (exchange : String) (kind : Kind) :
      Twin (.findMessage exchange (typeUri .v1 kind)) (.findMessage exchange (typeUri .v2 kind))
  | saveMessage (exchange : String) (party : Party) {m m' : Message} (h : m.Twin m') :
      Twin (.saveMessage exchange party m) (.saveMessage exchange party m')
  | send {m m' : Message} (h : m.Twin m') (connection : Connection) :
      Twin (.send m connection) (.send m' connection)
  | publish {event event' : Event} (h : event.Twin event') : Twin (.publish event) (.publish event')

structure Journal.Twin (j j' : Journal) : Prop where
  calls : Forall₂ Call.Twin j.calls j'.calls
  cache : j'.cache = j.cache
  threads : j'.threads = j.threads
  exchanges : j'.exchanges = j.exchanges
  messages : j'.messages = j.messages

structure World.Twin (w w' : World) : Prop where
  stores : w.stores.Twin w'.stores
  journal : w.journal.Twin w'.journal

-- The collaborators answer and fail without a look at the family.
structure Environment.Impartial (env : Environment) : Prop where
  put : ∀ n (e e' : Exchange), e.Twin e' → env.answer n (.put e) = env.answer n (.put e')
  findMessage : ∀ n exchange kind, env.answer n (.findMessage exchange (typeUri .v1 kind)) =
    env.answer n (.findMessage exchange (typeUri .v2 kind))
  saveMessage : ∀ n exchange party (m m' : Message), m.Twin m' →
    env.answer n (.saveMessage exchange party m) = env.answer n (.saveMessage exchange party m')
  send : ∀ n connection (m m' : Message), m.Twin m' →
    env.answer n (.send m connection) = env.answer n (.send m' connection)

namespace Message.Twin

variable {m m' : Message}

theorem type (h : m.Twin m') : m.type = typeUri .v1 m.kind ∧ m'.type = typeUri .v2 m.kind :=
  ⟨congrArg (typeUri · m.kind) h.first, congrArg₂ typeUri h.second h.kind⟩

theorem threadId (h : m.Twin m') : m'.threadId = m.threadId := by
  rw [Message.threadId, Message.threadId, h.header]

theorem parentThreadId (h : m.Twin m') : m'.parentThreadId = m.parentThreadId := by
  rw [Message.parentThreadId, Message.parentThreadId, h.header]

theorem attributes (h : m.Twin m') : Version.v2.attributes m' = Version.v1.attributes m := by
  rw [Version.attributes, Version.attributes, h.preview]

end Message.Twin

-- The type of a stored message stands for its kind.
theorem StoredMessage.Twin.key_eq_iff {m m' : StoredMessage} (h : m.Twin m') (exchange : String)
    (kind : Kind) :
    m.key = (exchange, typeUri .v1 kind) ↔ m'.key = (exchange, typeUri .v2 kind) := by
  obtain ⟨id, party, htwin⟩ := h
  simp only [key, Prod.mk.injEq, htwin.type.1, htwin.type.2]
  refine and_congr_right fun _ => ⟨fun h => ?_, fun h => ?_⟩
  · rw [(typeUri_inj h).2]
  · rw [(typeUri_inj h).2]

namespace Stores.Twin

variable {s s' : Stores}

theorem empty : Stores.empty.Twin .empty := ⟨.nil, .nil, .nil⟩

theorem record? (h : s.Twin s') (id : String) :
    Option.Rel Exchange.Twin (s.record? id) (s'.record? id) := by
  refine Table.rel_find? ?_ h.records
  rintro e _ ⟨-, rfl⟩
  rfl

theorem onThread (h : s.Twin s') (thread : String) :
    Forall₂ Exchange.Twin (s.onThread thread) (s'.onThread thread) := by
  refine List.rel_filter ?_ h.records
  rintro e _ ⟨-, rfl⟩
  exact Iff.rfl

-- What a look-up finds are the values of two messages that are twins.
theorem message? (h : s.Twin s') (exchange : String) (kind : Kind) :
    Option.Rel (fun j j' => ∃ m m' : Message, m.Twin m' ∧ j = m.toJson ∧ j' = m'.toJson)
      (s.message? exchange (typeUri .v1 kind)) (s'.message? exchange (typeUri .v2 kind)) := by
  have hfound : Option.Rel StoredMessage.Twin (s.messages.get? (exchange, typeUri .v1 kind))
      (s'.messages.get? (exchange, typeUri .v2 kind)) :=
    Table.rel_find? (fun m m' htwin => decide_eq_decide.2 (htwin.key_eq_iff exchange kind))
      h.messages
  unfold Stores.message?
  generalize s.messages.get? _ = found at hfound ⊢
  generalize s'.messages.get? _ = found' at hfound ⊢
  cases hfound with
  | none => exact .none
  | some htwin =>
    obtain ⟨id, party, htwin⟩ := htwin
    exact .some ⟨_, _, htwin, rfl, rfl⟩

theorem put (h : s.Twin s') {e e' : Exchange} (he : e.Twin e') : (s.put e).Twin (s'.put e') := by
  refine ⟨Table.forall₂_upsert ?_ h.records he, h.messages, h.events⟩
  rintro a _ c _ ⟨-, rfl⟩ ⟨-, rfl⟩
  exact Iff.rfl

theorem putMessage (h : s.Twin s') {m m' : StoredMessage} (hm : m.Twin m') :
    (s.putMessage m).Twin (s'.putMessage m') := by
  refine ⟨h.records, Table.forall₂_upsert ?_ h.messages hm, h.events⟩
  rintro a b _ _ htwin ⟨exchange, party, hnew⟩
  have hkey := htwin.key_eq_iff exchange
  simp only [StoredMessage.key, hnew.type.1, hnew.type.2] at hkey ⊢
  exact hkey _

theorem publish (h : s.Twin s') {event event' : Event} (hevent : event.Twin event') :
    (s.publish event).Twin (s'.publish event') :=
  ⟨h.records, h.messages, List.rel_append h.events (.cons hevent .nil)⟩

end Stores.Twin

namespace Journal.Twin

variable {j j' : Journal}

theorem length (h : j.Twin j') : j'.calls.length = j.calls.length := h.calls.length_eq.symm

theorem append (h : j.Twin j') {c c' : Call} (hc : c.Twin c') :
    Journal.Twin { j with calls := j.calls ++ [c] } { j' with calls := j'.calls ++ [c'] } :=
  { h with calls := List.rel_append h.calls (.cons hc .nil) }

end Journal.Twin

theorem World.Twin.empty : World.empty.Twin .empty := ⟨.empty, .nil, rfl, rfl, rfl, rfl⟩

namespace Version

variable (header : Header)

-- A payload of another kind is not to be had in either family.
theorem payload_alike {m m' : Message} (same : m'.kind = m.kind)
    (own : m.kind ∈ [.offer, .request, .issue] → ∃ payload,
      Version.v1.payload m m.kind = .ok payload ∧ Version.v2.payload m' m.kind = .ok payload) :
    ∀ kind ∈ [.offer, .request, .issue],
      Alike (· = ·) (Version.v1.payload m kind) (Version.v2.payload m' kind) := by
  intro kind hkind
  by_cases h : m.kind = kind
  · subst h
    obtain ⟨payload, hfirst, hsecond⟩ := own hkind
    rw [hfirst, hsecond]
    exact .ok rfl
  · have hfirst : ¬(m.version = .v1 ∧ m.kind = kind) := fun h' => h h'.2
    have hsecond : ¬(m'.version = .v2 ∧ m'.kind = kind) := fun h' => h (same ▸ h'.2)
    rw [Version.payload, Version.payload, if_neg hfirst, if_neg hsecond]
    exact .error rfl

theorem propose_second (p : Proposal) : ∃ formats filters, Version.v2.propose header p =
    ⟨header, .propose2 p.notes
      (if p.attributes = [] then none else some ⟨Version.v2.previewType, p.attributes⟩) formats
      filters⟩ := by
  simp only [propose]
  split
  · exact ⟨_, _, rfl⟩
  · exact ⟨_, _, rfl⟩

theorem propose_twin (p : Proposal) :
    (Version.v1.propose header p).Twin (Version.v2.propose header p) := by
  have hdefinition := proposedDefinition_propose .v2 header p
  have hplain := propose_plain .v2 header p
  obtain ⟨formats, filters, hsecond⟩ := propose_second header p
  rw [hsecond] at hdefinition hplain ⊢
  refine ⟨rfl, rfl, rfl, rfl, rfl, ?_, ?_, payload_alike rfl nofun, propose_plain .v1 header p,
    hplain⟩
  · show Option.map Preview.attributes (ite _ _ _) = Option.map Preview.attributes (ite _ _ _)
    split <;> rfl
  · rw [hdefinition]
    exact .ok rfl

section Payloads

variable (payload : String)

theorem offer_twin (details : OfferDetails) :
    (Version.v1.offer header payload details).Twin (Version.v2.offer header payload details) := by
  have hfirst := payload_offer .v1 header payload details
  have hsecond := payload_offer .v2 header payload details
  exact ⟨rfl, rfl, rfl, rfl, rfl, rfl, .ok rfl, payload_alike rfl fun _ => ⟨_, hfirst, hsecond⟩,
    offer_plain .v1 header payload details, offer_plain .v2 header payload details⟩

theorem request_twin {offer offer' : Message} (h : offer.Twin offer') :
    (Version.v1.request header payload offer).Twin
      (Version.v2.request header payload offer') := by
  have hfirst := payload_request .v1 header payload offer
  have hsecond := payload_request .v2 header payload offer'
  exact ⟨rfl, rfl, rfl, rfl, h.comment, rfl, .ok rfl,
    payload_alike rfl fun _ => ⟨_, hfirst, hsecond⟩, request_plain .v1 header payload offer,
    request_plain .v2 header payload offer'⟩

-- A credential has no comment but its own.
theorem issue_twin (comment : Option String) (offer offer' : Message) :
    (Version.v1.issue header payload comment offer).Twin
      (Version.v2.issue header payload comment offer') := by
  have hfirst := payload_issue .v1 header payload comment offer
  have hsecond := payload_issue .v2 header payload comment offer'
  exact ⟨rfl, rfl, rfl, rfl, rfl, rfl, .ok rfl, payload_alike rfl fun _ => ⟨_, hfirst, hsecond⟩,
    issue_plain .v1 header payload comment offer, issue_plain .v2 header payload comment offer'⟩

end Payloads

theorem ack_twin : (Version.v1.ack header).Twin (Version.v2.ack header) :=
  ⟨rfl, rfl, rfl, rfl, rfl, rfl, .ok rfl, payload_alike rfl nofun, nofun, nofun⟩

theorem problemReport_twin (code text : String) :
    (Version.v1.problemReport header code text).Twin
      (Version.v2.problemReport header code text) :=
  ⟨rfl, rfl, rfl, rfl, rfl, rfl, .ok rfl, payload_alike rfl nofun, nofun, nofun⟩

end Version

end CredentialIssuance
