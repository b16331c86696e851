import CredentialIssuance.Proofs.Families
import CredentialIssuance.Proofs.Agreement

namespace CredentialIssuance

open List (Forall₂)

-- Takes in a message that has been read, and sends the response, if there is one.
def Inbound.answer (inbound : Inbound) : Action (Option Outbound) := do
  match ← inbound.dispatch with
  | none => return none
  | some outbound =>
    Action.send outbound.message outbound.connection
    return some outbound

theorem receiveText_eq (text : String) (connection : Option Connection) :
    receiveText text connection = (do (← Inbound.decode text connection).answer) := by
  unfold receiveText dispatchText
  rw [bind_assoc]
  rfl

-- What is done with a message that arrives.
inductive Intake where
  | process (kind : Kind)
  | dispatch
  | answer
  deriving DecidableEq, Repr

-- An arriving message is named by its place among those that have been returned so far.
inductive Act where
  | operate (operation : Operation) (own : operation.party = .sender)
  | obey (command : Command)
  | look (exchange : String)
  | find (exchange : String) (kind : Kind)
  | deliver (intake : Intake) (place : Nat) (connection : Option Connection)

def Intake.run (version : Version) : Intake → Inbound → Action (List Message)
  | .process kind, inbound => do
    let _ ← (Operation.receive kind inbound).run version
    return []
  | .dispatch, inbound => return (← inbound.dispatch).toList.map Outbound.message
  | .answer, inbound => return (← inbound.answer).toList.map Outbound.message

-- A message on its way is a value, which is read when it arrives. Where there is none, nothing
-- happens.
def Intake.carried (version : Version) (intake : Intake) (connection : Option Connection) :
    Option Message → Action (List Message)
  | none => return []
  | some m => do intake.run version ⟨← Message.ofJson m.toJson, connection⟩

-- Gives the messages that are returned.
def Act.run (version : Version) (returned : List Message) : Act → Action (List Message)
  | .operate operation _ => return [(← operation.run version).message]
  | .obey command => do
    let _ ← command.run version
    return []
  | .look exchange => do
    let _ ← Inquiry.record exchange
    return []
  | .find exchange kind => return (← findMessage exchange kind).toList
  | .deliver intake place connection => intake.carried version connection returned[place]?

def Call.sentMessage? : Call → Option Message
  | .send m _ => some m
  | _ => none

-- The worlds of both agents, and the messages that have been returned to an application or handed
-- over for sending.
structure Session where
  world : Side → World
  returned : List Message

namespace Session

def start : Session := ⟨fun _ => World.empty, []⟩

def step (env : Side → Environment) (version : Version) (s : Session) (side : Side) (act : Act) :
    Except Error (List Message) × Session :=
  let ended := act.run version s.returned (env side) (s.world side)
  let calls := ended.2.journal.calls.drop (s.world side).journal.calls.length
  (ended.1, ⟨Function.update s.world side ended.2,
    s.returned ++ (ended.1.toOption.getD [] ++ calls.filterMap Call.sentMessage?)⟩)

-- How each act of a script ends, and what it leaves.
def trace (env : Side → Environment) (version : Version) :
    Session → List (Side × Act) → List (Except Error (List Message) × Session)
  | _, [] => []
  | s, (side, act) :: rest =>
    let next := s.step env version side act
    next :: next.2.trace env version rest

end Session

theorem Call.Twin.sentMessage? {c c' : Call} (h : c.Twin c') :
    Option.Rel Message.Twin c.sentMessage? c'.sentMessage? := by
  cases h with
  | send hm connection => exact .some hm
  | same hfamily =>
    cases c with
    | send => cases hfamily
    | _ => exact .none
  | _ => exact .none

section Related

open Inquiry

variable {env : Environment} (impartial : env.Impartial) {inbound inbound' : Inbound}

include impartial

theorem Inbound.dispatch_related (h : inbound.Paired env.families () inbound') :
    Action.Related env.families () (fun _ => Option.Rel (Outbound.Paired env.families ()))
      inbound.dispatch inbound'.dispatch :=
  (Environment.families_lasting impartial).dispatch h (Message.Twin.first h.message)
    (Message.Twin.second h.message)

theorem Inbound.answer_related (h : inbound.Paired env.families () inbound') :
    Action.Related env.families () (fun _ => Option.Rel (Outbound.Paired env.families ()))
      inbound.answer inbound'.answer := by
  refine .bind (Inbound.dispatch_related impartial h) fun _ found found' _ hfound => ?_
  cases hfound with
  | none => exact .pure .none
  | @some outbound outbound' houtbound =>
    obtain ⟨m, _⟩ := outbound
    obtain ⟨m', target⟩ := outbound'
    obtain ⟨hm, rfl⟩ := houtbound
    exact .step (send_related impartial hm target) fun _ _ _ => .pure (.some ⟨hm, rfl⟩)

theorem Intake.run_related (intake : Intake) (h : inbound.Paired env.families () inbound') :
    Action.Related env.families () (fun _ => Forall₂ Message.Twin) (intake.run .v1 inbound)
      (intake.run .v2 inbound') := by
  have hresponse : ∀ found found', Option.Rel (Outbound.Paired env.families ()) found found' →
      Forall₂ Message.Twin (found.toList.map Outbound.message)
        (found'.toList.map Outbound.message) := by
    intro found found' hfound
    cases hfound with
    | none => exact .nil
    | some houtbound => exact .cons houtbound.1 .nil
  cases intake with
  | process kind =>
    exact .bind ((Environment.families_lasting impartial).run (.receive kind h))
      fun _ _ _ _ _ => .pure .nil
  | dispatch =>
    exact .bind (Inbound.dispatch_related impartial h)
      fun _ _ _ _ hfound => .pure (hresponse _ _ hfound)
  | answer =>
    exact .bind (Inbound.answer_related impartial h)
      fun _ _ _ _ hfound => .pure (hresponse _ _ hfound)

-- Both messages are read as they were written.
theorem Intake.carried_related (intake : Intake) (connection : Option Connection)
    {arriving arriving' : Option Message} (h : Option.Rel Message.Twin arriving arriving') :
    Action.Related env.families () (fun _ => Forall₂ Message.Twin)
      (intake.carried .v1 connection arriving) (intake.carried .v2 connection arriving') := by
  cases h with
  | none => exact .pure .nil
  | @some m m' hm =>
    have hread : Alike Message.Twin (Message.ofJson m.toJson) (Message.ofJson m'.toJson) := by
      rw [Message.ofJson_toJson hm.plain, Message.ofJson_toJson hm.plain']
      exact .ok hm
    exact .step (.lift hread) fun _ _ hm => intake.run_related impartial (hm.paired connection)

theorem Act.run_related {returned returned' : List Message}
    (h : Forall₂ Message.Twin returned returned') (act : Act) :
    Action.Related env.families () (fun _ => Forall₂ Message.Twin) (act.run .v1 returned)
      (act.run .v2 returned') := by
  have hlasting := Environment.families_lasting impartial
  have hrecord (exchange : String) :=
    hlasting.ofInquiry ((hlasting.sound ()).record (a := exchange) rfl)
  cases act with
  | operate operation own =>
    exact .bind (hlasting.run (Operation.paired_of_sends own)) fun _ _ _ _ ho =>
      .pure (.cons ho.1 .nil)
  | obey command => exact .bind (Command.run_related impartial command) fun _ _ _ _ _ => .pure .nil
  | look exchange => exact .bind (hrecord exchange) fun _ _ _ _ _ => .pure .nil
  | find exchange kind =>
    have hfind : Inquiry.Related env.families () (Still () (Option.Rel Message.Twin))
        (findMessage exchange kind) (findMessage exchange kind) :=
      .step ((hlasting.sound ()).record rfl) fun _ _ he =>
        .message?_twin impartial (.of_record he) kind
    refine .step (hlasting.ofInquiry hfind) fun found found' hfound => ?_
    cases hfound with
    | none => exact .pure .nil
    | some hm => exact .pure (.cons hm .nil)
  | deliver intake place connection =>
    have hrest := List.forall₂_drop place h
    refine intake.carried_related impartial connection ?_
    rw [← List.head?_drop, ← List.head?_drop]
    generalize returned.drop place = rest at hrest ⊢
    generalize returned'.drop place = rest' at hrest ⊢
    cases hrest with
    | nil => exact .none
    | cons hm _ => exact .some hm

end Related

namespace Session

structure Twin (s s' : Session) : Prop where
  world : ∀ side, (s.world side).Twin (s'.world side)
  returned : Forall₂ Message.Twin s.returned s'.returned

theorem Twin.start : start.Twin start := ⟨fun _ => .empty, .nil⟩

variable {env : Side → Environment} {s s' : Session}

theorem Twin.step (impartial : ∀ side, (env side).Impartial) (h : s.Twin s') (side : Side)
    (act : Act) :
    Alike (Forall₂ Message.Twin) (s.step env .v1 side act).1 (s'.step env .v2 side act).1 ∧
      (s.step env .v1 side act).2.Twin (s'.step env .v2 side act).2 := by
  obtain ⟨_, _, hstores, hjournal, hresult⟩ := act.run_related (impartial side) h.returned
    (h.world side).stores (h.world side).journal
  have hafter : (act.run .v1 s.returned (env side) (s.world side)).2.Twin
      (act.run .v2 s'.returned (env side) (s'.world side)).2 := ⟨hstores, hjournal⟩
  replace hresult : Alike (Forall₂ Message.Twin)
      (act.run .v1 s.returned (env side) (s.world side)).1
      (act.run .v2 s'.returned (env side) (s'.world side)).1 := hresult
  unfold Session.step
  generalize act.run .v1 s.returned (env side) (s.world side) = ended at hresult hafter ⊢
  generalize act.run .v2 s'.returned (env side) (s'.world side) = ended' at hresult hafter ⊢
  refine ⟨hresult, ?_, ?_⟩
  · intro side'
    by_cases hside : side' = side
    · subst hside
      simpa using hafter
    · simpa [Function.update_of_ne hside] using h.world side'
  · refine List.rel_append h.returned (List.rel_append ?_ ?_)
    · generalize ended.1 = result at hresult ⊢
      generalize ended'.1 = result' at hresult ⊢
      cases hresult with
      | ok hmessages => exact hmessages
      | error _ => exact .nil
    · rw [(h.world side).journal.length]
      exact List.rel_filterMap (fun c c' hc => hc.sentMessage?)
        (List.forall₂_drop _ hafter.journal.calls)

theorem Twin.trace (impartial : ∀ side, (env side).Impartial) (h : s.Twin s')
    (script : List (Side × Act)) :
    Forall₂
      (fun first second =>
        Alike (Forall₂ Message.Twin) first.1 second.1 ∧ first.2.Twin second.2)
      (s.trace env .v1 script) (s'.trace env .v2 script) := by
  induction script generalizing s s' with
  | nil => exact .nil
  | cons head rest ih =>
    obtain ⟨side, act⟩ := head
    have hstep := h.step impartial side act
    exact .cons hstep (ih hstep.2)

end Session

-- A record, and an event about one, as they are in the second family.
def Exchange.second (e : Exchange) : Exchange := { e with version := .v2 }

def Event.second (event : Event) : Event := { event with exchange := event.exchange.second }

-- Where a message is stored, as what, and which side it came from.
def StoredMessage.place (m : StoredMessage) : String × Option Kind × Option Party :=
  (m.exchange, (typeOf? m.type).map Prod.snd, m.party)

-- What is sent, and over which connection.
def Call.sent? : Call → Option (Kind × Connection)
  | .send m target => some (m.kind, target)
  | _ => none

-- What an agent has come to in a run of the first family, and in the same run of the second.
structure World.Matches (w w' : World) : Prop where
  records : w'.stores.records.entries = w.stores.records.entries.map Exchange.second
  events : w'.stores.events = w.stores.events.map Event.second
  first : (∀ e ∈ w.stores.records.entries, e.version = .v1) ∧
    ∀ event ∈ w.stores.events, event.exchange.version = .v1
  stored : w'.stores.messages.entries.map StoredMessage.place =
    w.stores.messages.entries.map StoredMessage.place
  sent : w'.journal.calls.filterMap Call.sent? = w.journal.calls.filterMap Call.sent?

section Matches

variable {α β γ : Type} {R : α → β → Prop} {xs : List α} {ys : List β}

theorem map_eq_of_forall₂ {f : α → γ} {g : β → γ} (same : ∀ a b, R a b → g b = f a)
    (h : Forall₂ R xs ys) : ys.map g = xs.map f := by
  have hmaps : Forall₂ (· = ·) (xs.map f) (ys.map g) := by
    rw [List.forall₂_map_left_iff, List.forall₂_map_right_iff]
    exact h.imp fun a b hab => (same a b hab).symm
  rw [List.forall₂_eq_eq_eq] at hmaps
  exact hmaps.symm

theorem forall_of_forall₂ {P : α → Prop} (holds : ∀ a b, R a b → P a) (h : Forall₂ R xs ys) :
    ∀ a ∈ xs, P a :=
  ((List.forall₂_and_left xs ys).1 (h.imp fun a b hab => ⟨holds a b hab, hab⟩)).1

end Matches

theorem StoredMessage.Twin.place {m m' : StoredMessage} (h : m.Twin m') : m'.place = m.place := by
  obtain ⟨exchange, party, hm⟩ := h
  simp only [StoredMessage.place, hm.type.1, hm.type.2, typeOf?_typeUri, Option.map_some]

theorem Call.Twin.sent? {c c' : Call} (h : c.Twin c') : c'.sent? = c.sent? := by
  cases h with
  | send hm target => exact congrArg (fun kind => some (kind, target)) hm.kind
  | _ => rfl

theorem Event.Twin.second {event event' : Event} (h : event.Twin event') :
    event' = event.second := by
  obtain ⟨⟨-, hexchange⟩, hprevious⟩ := h
  cases event'
  subst hexchange hprevious
  rfl

theorem World.Twin.matches {w w' : World} (h : w.Twin w') : w.Matches w' where
  records := by
    rw [← List.map_id w'.stores.records.entries]
    exact map_eq_of_forall₂ (fun _ _ he => he.2) h.stores.records
  events := by
    rw [← List.map_id w'.stores.events]
    exact map_eq_of_forall₂ (fun _ _ hevent => hevent.second) h.stores.events
  first := ⟨forall_of_forall₂ (fun _ _ he => he.1) h.stores.records,
    forall_of_forall₂ (fun _ _ he => he.1.1) h.stores.events⟩
  stored := map_eq_of_forall₂ (fun _ _ hm => hm.place) h.stores.messages
  sent := by
    have hsent := map_eq_of_forall₂ (fun _ _ hc => hc.sent?) h.journal.calls
    simpa only [List.filterMap_map, Function.id_comp] using congrArg (List.filterMap id) hsent

namespace Session

variable {env : Side → Environment}

-- The two families run one state machine.
theorem traces_match (impartial : ∀ side, (env side).Impartial) (script : List (Side × Act)) :
    Forall₂
      (fun first second =>
        Alike (fun ms ms' => ms'.map Message.kind = ms.map Message.kind) first.1 second.1 ∧
          ∀ side, (first.2.world side).Matches (second.2.world side))
      (start.trace env .v1 script) (start.trace env .v2 script) := by
  refine (Twin.trace impartial .start script).imp ?_
  rintro first second ⟨hresult, htwin⟩
  refine ⟨hresult.imp (fun _ _ => id) fun _ _ hmessages => ?_, fun side => (htwin.world side).matches⟩
  exact map_eq_of_forall₂ (fun _ _ hm => hm.kind) hmessages

end Session

-- An agent that takes every step without asking, and for which nothing fails. What it offers and
-- what it issues can be read.
def Environment.prompt (mark : Char) : Environment :=
  let payload (definition : String) : String :=
    (Json.object [("schema_id", .str "schema"), ("cred_def_id", .str definition)]).text
  { steady mark with
    config := { autoAccept := .always }
    answer := fun n call =>
      match call with
      | .createOffer _ definition _ => .ok (payload definition)
      | .createCredential issuer _ _ _ _ => .ok (payload issuer.definition)
      | call => (steady mark).answer n call }

theorem Environment.prompt_impartial (mark : Char) : (prompt mark).Impartial where
  put := fun _ _ _ _ => rfl
  findMessage := fun _ _ _ => rfl
  saveMessage := fun _ _ _ _ _ _ => rfl
  send := fun _ _ _ _ _ => rfl

-- A proposal leads to a credential, step by step. The request, delivered once more, is refused.
theorem Session.traces_match_issued :
    let env := fun side => Environment.prompt side.mark
    let link := some (Parties.steady.connection .left)
    let proposal := { Proposal.blank with terms.definition := some "definition" }
    let script := [(.left, .operate (.propose "connection" proposal none) rfl),
      (.right, .deliver .dispatch 0 link), (.left, .deliver .answer 1 link),
      (.right, .deliver .dispatch 2 link), (.left, .deliver .dispatch 4 link),
      (.right, .deliver .dispatch 5 link), (.right, .deliver (.process .request) 2 link)]
    let states (side : Side) (s : Session) := (s.world side).stores.records.entries.map Exchange.state
    (∀ version, (start.trace env version script).map
        (fun next => (next.1.toBool, states .left next.2, states .right next.2)) =
      [(true, [.proposalSent], []), (true, [.proposalSent], [.offerSent]),
        (true, [.requestSent], [.offerSent]), (true, [.requestSent], [.credentialIssued]),
        (true, [.done], [.credentialIssued]), (true, [.done], [.done]),
        (false, [.done], [.done])]) ∧
    Forall₂
      (fun first second =>
        Alike (fun ms ms' => ms'.map Message.kind = ms.map Message.kind) first.1 second.1 ∧
          ∀ side, (first.2.world side).Matches (second.2.world side))
      (start.trace env .v1 script) (start.trace env .v2 script) := by
  intro env link proposal script states
  refine ⟨?_, traces_match (fun side => Environment.prompt_impartial side.mark) script⟩
  intro version
  cases version <;> decide +kernel

end CredentialIssuance
