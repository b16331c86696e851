import CredentialIssuance.Proofs.Tandem
import CredentialIssuance.Proofs.Wire

namespace CredentialIssuance

-- The same message under another identifier of its own.
structure Message.Renewed (m m' : Message) : Prop where
  body : m'.body = m.body
  thread : m'.header.thread = m.header.thread

theorem Message.Renewed.refl (m : Message) : m.Renewed m := ⟨rfl, rfl⟩

theorem Message.Renewed.type {m m' : Message} (h : m.Renewed m') : m'.type = m.type := by
  rw [Message.type, Message.type, Message.version, Message.version, Message.kind, Message.kind, h.body]

theorem Message.Renewed.plain {m m' : Message} (h : m.Renewed m') (plain : m.Plain) : m'.Plain := by
  rwa [Message.Plain, h.body]

section Messages

variable {version : Version} {header header' : Header} (h : header'.thread = header.thread)
include h

theorem Version.propose_renewed (p : Proposal) :
    (version.propose header p).Renewed (version.propose header' p) := by
  cases version with
  | v1 => exact ⟨rfl, h⟩
  | v2 =>
    simp only [propose]
    split <;> exact ⟨rfl, h⟩

theorem Version.offer_renewed (payload : String) (d : OfferDetails) :
    (version.offer header payload d).Renewed (version.offer header' payload d) := by
  cases version <;> exact ⟨rfl, h⟩

variable {offer offer' : Message} (same : offer.Renewed offer')
include same

-- What is taken over from an offer is not its name.
theorem Version.request_renewed (payload : String) :
    (version.request header payload offer).Renewed (version.request header' payload offer') := by
  obtain ⟨_, body⟩ := offer
  obtain ⟨_, body'⟩ := offer'
  obtain ⟨hbody, -⟩ := same
  cases hbody
  cases version <;> exact ⟨rfl, h⟩

theorem Version.issue_renewed (payload : String) (comment : Option String) :
    (version.issue header payload comment offer).Renewed
      (version.issue header' payload comment offer') := by
  obtain ⟨_, body⟩ := offer
  obtain ⟨_, body'⟩ := offer'
  obtain ⟨hbody, -⟩ := same
  cases hbody
  cases version <;> exact ⟨rfl, h⟩

end Messages

-- A computation that fails over no record.
def Nameless {α : Type} (x : Except Error α) : Prop := ∀ e, x = .error e → e.exchange? = none

namespace Nameless

variable {α β : Type}

theorem ok (a : α) : Nameless (.ok a) := nofun

theorem error {e : Error} (h : e.exchange? = none) : Nameless (.error e : Except Error α) := by
  rintro _ ⟨⟩
  exact h

theorem bind {x : Except Error α} {f : α → Except Error β} (hx : Nameless x)
    (hf : ∀ a, Nameless (f a)) : Nameless (x >>= f) := by
  cases x with
  | ok a => exact hf a
  | error e => exact .error (hx e rfl)

theorem find (attachments : List Attachment) (id : String) :
    Nameless (Attachment.find attachments id) := by
  unfold Attachment.find
  split
  · exact .ok _
  · exact .error rfl

theorem content (a : Attachment) : Nameless a.payload := by
  unfold Attachment.payload Attachment.decode
  split
  · split
    · exact .error rfl
    · split
      · exact .error rfl
      · exact .ok _
  · exact .ok _
  · exact .error rfl

theorem payload (version : Version) (m : Message) (kind : Kind) :
    Nameless (version.payload m kind) := by
  unfold Version.payload Version.extract
  split
  · split
    · exact .bind (find _ _) content
    · refine .bind ?_ fun _ => .bind (find _ _) content
      unfold Format.require
      split
      · exact .ok _
      · exact .error rfl
  · exact .error rfl

theorem proposedDefinition (version : Version) (m : Message) :
    Nameless (version.proposedDefinition m) := by
  unfold Version.proposedDefinition
  split
  · exact .ok _
  · dsimp only
    split
    · refine .bind (find _ _) fun a => .bind (content a) fun filter => ?_
      split
      · exact .ok _
      · exact .error rfl
    · exact .ok _
  · exact .ok _

theorem ofJson (j : Json) : Nameless (Message.ofJson j) := by
  unfold Message.ofJson
  split
  · exact .error rfl
  · split
    · exact .error rfl
    · split
      · exact .error rfl
      · exact .ok _

theorem self {E : Error → Error → Prop} {x : Except Error α} (h : Nameless x)
    (hE : ∀ e : Error, e.exchange? = none → E e e) : Concur E (· = ·) x x :=
  .self fun e he => hE e (h e he)

end Nameless

-- The name of a message is not read.
theorem Message.Renewed.reads {ι : Type} {P : Pairing ι} {n : ι} {m m' : Message}
    (h : m.Renewed m') (version : P.version' = P.version)
    (error : ∀ e : Error, e.exchange? = none → P.error n e e) : P.Reads n m m' := by
  obtain ⟨header, body⟩ := m
  obtain ⟨header', body'⟩ := m'
  obtain ⟨hbody, -⟩ := h
  cases hbody
  constructor
  case kind | comment => rfl
  case family => rw [version]; rfl
  case preview => rw [version]; rfl
  case definition => rw [version]; exact (Nameless.proposedDefinition _ _).self error
  case payload => rw [version]; exact fun kind _ => (Nameless.payload _ _ kind).self error
  case fault => rw [version]; exact fun f hf => error _ (hf _ _)

-- What stands for a name that one run has generated, or for a time that its clock has shown, in
-- another run.
structure Renaming where
  exchange : String → String → Prop
  message : String → String → Prop
  time : Timestamp → Timestamp → Prop

-- What one renaming relates, the other one does.
structure Renaming.Within (r r' : Renaming) : Prop where
  exchange : ∀ a b, r.exchange a b → r'.exchange a b
  message : ∀ a b, r.message a b → r'.message a b
  time : ∀ a b, r.time a b → r'.time a b

-- Everything else in the records is the same.
structure Exchange.Renamed (r : Renaming) (e e' : Exchange) : Prop where
  id : r.exchange e.id e'.id
  createdAt : r.time e.createdAt e'.createdAt
  updatedAt : Option.Rel r.time e.updatedAt e'.updatedAt
  rest : e' = { e with id := e'.id, createdAt := e'.createdAt, updatedAt := e'.updatedAt }

-- A message that the agent has made has a name of its own in each run. One that has come in is the
-- same in both.
inductive Message.Renamed (r : Renaming) : Message → Message → Prop where
  | same (m : Message) : Renamed r m m
  | made {m m' : Message} (renewed : m.Renewed m') (plain : m.Plain)
      (id : r.message m.header.id m'.header.id) : Renamed r m m'

-- A value that has been written is that of the message.
inductive StoredMessage.Renamed (r : Renaming) : StoredMessage → StoredMessage → Prop where
  | same {a b type : String} {party : Option Party} {value : Json} (exchange : r.exchange a b) :
      Renamed r ⟨a, type, party, value⟩ ⟨b, type, party, value⟩
  | made {a b type : String} {party : Option Party} {m m' : Message} (exchange : r.exchange a b)
      (renewed : m.Renewed m') (plain : m.Plain) (id : r.message m.header.id m'.header.id) :
      Renamed r ⟨a, type, party, m.toJson⟩ ⟨b, type, party, m'.toJson⟩

structure Event.Renamed (r : Renaming) (event event' : Event) : Prop where
  exchange : event.exchange.Renamed r event'.exchange
  previous : event'.previous = event.previous

structure Outcome.Renamed (r : Renaming) (o o' : Outcome) : Prop where
  message : o.message.Renamed r o'.message
  record : o.record.Renamed r o'.record

structure Outbound.Renamed (r : Renaming) (o o' : Outbound) : Prop where
  message : o.message.Renamed r o'.message
  connection : o'.connection = o.connection

-- All that can be looked up is the same under the other names. In which order the tables list
-- records of different threads does not matter.
structure Stores.Renamed (r : Renaming) (s s' : Stores) : Prop where
  record? : ∀ a b, r.exchange a b → Option.Rel (Exchange.Renamed r) (s.record? a) (s'.record? b)
  messages : ∀ a b type, r.exchange a b →
    Option.Rel (StoredMessage.Renamed r) (s.messages.get? (a, type)) (s'.messages.get? (b, type))
  onThread : ∀ thread, List.Forall₂ (Exchange.Renamed r) (s.onThread thread) (s'.onThread thread)

section Within

variable {r r' : Renaming} (within : r.Within r')
include within

theorem Exchange.Renamed.mono {e e' : Exchange} (h : e.Renamed r e') : e.Renamed r' e' where
  id := within.exchange _ _ h.id
  createdAt := within.time _ _ h.createdAt
  updatedAt := h.updatedAt.imp within.time
  rest := h.rest

theorem Message.Renamed.mono {m m' : Message} (h : m.Renamed r m') : m.Renamed r' m' := by
  cases h with
  | same => exact .same m
  | made renewed plain id => exact .made renewed plain (within.message _ _ id)

theorem StoredMessage.Renamed.mono {m m' : StoredMessage} (h : m.Renamed r m') :
    m.Renamed r' m' := by
  cases h with
  | same exchange => exact .same (within.exchange _ _ exchange)
  | made exchange renewed plain id =>
    exact .made (within.exchange _ _ exchange) renewed plain (within.message _ _ id)

theorem Event.Renamed.mono {event event' : Event} (h : event.Renamed r event') :
    event.Renamed r' event' := ⟨h.exchange.mono within, h.previous⟩

theorem Outcome.Renamed.mono {o o' : Outcome} (h : o.Renamed r o') : o.Renamed r' o' :=
  ⟨h.message.mono within, h.record.mono within⟩

theorem Outbound.Renamed.mono {o o' : Outbound} (h : o.Renamed r o') : o.Renamed r' o' :=
  ⟨h.message.mono within, h.connection⟩

end Within

theorem Exchange.Renamed.refl {r : Renaming} {e : Exchange} (id : r.exchange e.id e.id)
    (time : ∀ t, r.time t t) : e.Renamed r e := by
  refine ⟨id, time _, ?_, rfl⟩
  cases e.updatedAt with
  | none => exact .none
  | some t => exact .some (time t)

theorem Exchange.Renamed.eq_with {r : Renaming} {e e' : Exchange} (h : e.Renamed r e') :
    ∃ id createdAt updatedAt, r.exchange e.id id ∧ r.time e.createdAt createdAt ∧
      Option.Rel r.time e.updatedAt updatedAt ∧ e' = { e with id, createdAt, updatedAt } :=
  ⟨_, _, _, h.id, h.createdAt, h.updatedAt, h.rest⟩

theorem Exchange.Renamed.threadId {r : Renaming} {e e' : Exchange} (h : e.Renamed r e') :
    e'.threadId = e.threadId := by
  rw [h.rest]

theorem Message.Renamed.renewed {r : Renaming} {m m' : Message} (h : m.Renamed r m') :
    m.Renewed m' := by
  cases h with
  | same => exact .refl m
  | made renewed => exact renewed

theorem StoredMessage.Renamed.exchange {r : Renaming} {m m' : StoredMessage} (h : m.Renamed r m') :
    r.exchange m.exchange m'.exchange := by
  cases h with
  | same exchange | made exchange => exact exchange

theorem StoredMessage.Renamed.type {r : Renaming} {m m' : StoredMessage} (h : m.Renamed r m') :
    m'.type = m.type := by
  cases h <;> rfl

-- What is filed under a name is itself where the name stands for itself.
theorem StoredMessage.Renamed.self {r : Renaming} {id : String} (h : r.exchange id id) (s : Stores)
    (type : String) :
    Option.Rel (Renamed r) (s.messages.get? (id, type)) (s.messages.get? (id, type)) := by
  cases hfound : s.messages.get? (id, type) with
  | none => exact .none
  | some stored =>
    obtain ⟨_, _, party, value⟩ := stored
    obtain ⟨-, hkey⟩ := (Table.get?_eq_some_iff _ _ _).1 hfound
    cases hkey
    exact .some (.same h)

theorem Message.Renamed.stored {r : Renaming} {m m' : Message} (h : m.Renamed r m') {a b : String}
    (exchange : r.exchange a b) {type : String} {party : Option Party} :
    StoredMessage.Renamed r ⟨a, type, party, m.toJson⟩ ⟨b, type, party, m'.toJson⟩ := by
  cases h with
  | same => exact .same exchange
  | made renewed plain id => exact .made exchange renewed plain id

-- The same value, or two that have both been drawn since the start.
inductive Anew {α : Type} (draw : Nat → α) (start : Nat) : α → α → Prop where
  | same (a : α) : Anew draw start a a
  | drawn {m n : Nat} (hm : start ≤ m) (hn : start ≤ n) : Anew draw start (draw m) (draw n)

namespace Environment

-- Whatever is generated later may be generated in another order.
def anew (env : Environment) (j : Journal) : Renaming where
  exchange := Anew env.exchangeName j.exchanges
  message := Anew env.messageName j.messages
  time := Anew env.now j.calls.length

-- The stores do not look at generated names, nor at times: whether a call fails does not depend on
-- them.
structure Overlooks (env : Environment) (r : Renaming) : Prop where
  get : ∀ n a b, r.exchange a b → env.answer n (.get b) = env.answer n (.get a)
  findMessage : ∀ n a b type, r.exchange a b →
    env.answer n (.findMessage b type) = env.answer n (.findMessage a type)
  put : ∀ n e e', e.Renamed r e' → env.answer n (.put e') = env.answer n (.put e)
  saveMessage : ∀ n a b party m m', r.exchange a b → m.Renamed r m' →
    env.answer n (.saveMessage b party m') = env.answer n (.saveMessage a party m)

end Environment

end CredentialIssuance
