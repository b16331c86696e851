import CredentialIssuance.Proofs.Family
import CredentialIssuance.Proofs.Frame
import CredentialIssuance.Proofs.Renaming
import Mathlib.Data.Nat.Basic
import Mathlib.Order.Basic

namespace CredentialIssuance

open List (Forall₂)

-- The task ends alike, apart from names and times.
def Task.Agree (r : Renaming) : Except Error (Outcome ⊕ Option Outbound) →
    Except Error (Outcome ⊕ Option Outbound) → Prop :=
  Concur (Error.Renamed r.exchange)
    (Sum.LiftRel (Outcome.Renamed r) (Option.Rel (Outbound.Renamed r)))

theorem Task.Agree.mono {r r' : Renaming} (within : r.Within r')
    {result result' : Except Error (Outcome ⊕ Option Outbound)} (h : Agree r result result') :
    Agree r' result result' :=
  h.imp (fun _ _ hxy => hxy.mono within.exchange) fun _ _ hab =>
    hab.mono (fun _ _ ho => ho.mono within) fun _ _ hsent => hsent.imp fun _ _ ho => ho.mono within

-- A task on a thread, done from each of two worlds. Both have come from where the journal was
-- `base`.
structure Rerun where
  env : Environment
  task : Task
  thread : String
  base : Journal
  start : World
  start' : World

-- Neither a record nor a message is there.
structure Stores.Vacant (s : Stores) (id : String) : Prop where
  record? : s.record? id = none
  messages : ∀ type, s.messages.get? (id, type) = none

namespace Stores.Vacant

variable {s : Stores} {id : String} (h : s.Vacant id)
include h

theorem put {e : Exchange} (hne : e.id ≠ id) : (s.put e).Vacant id := by
  refine ⟨?_, h.messages⟩
  rw [Stores.record?, Stores.put, Table.get?_put, if_neg hne]
  exact h.record?

theorem publish (event : Event) : (s.publish event).Vacant id := ⟨h.record?, h.messages⟩

theorem putMessage {m : StoredMessage} (hne : m.exchange ≠ id) : (s.putMessage m).Vacant id := by
  refine ⟨h.record?, fun type => ?_⟩
  rw [Stores.putMessage, Table.get?_put, if_neg fun hkey => hne (congrArg Prod.fst hkey)]
  exact h.messages type

end Stores.Vacant

namespace Rerun

-- The two worlds change places.
def symm (x : Rerun) : Rerun := { x with start := x.start', start' := x.start }

section Relations

variable (x : Rerun) (n : Nat × Nat)

-- The names of the records that are on the thread at the start stand for themselves, and those that
-- are drawn for the ones that are drawn in their place. `n` says how many have been drawn, of
-- records and of messages.
def naming : Renaming where
  exchange a b :=
    (b = a ∧ ∃ e ∈ x.start.stores.onThread x.thread, e.id = a) ∨
      ∃ i < n.1, a = x.env.exchangeName (x.start.journal.exchanges + i) ∧
        b = x.env.exchangeName (x.start'.journal.exchanges + i)
  message a b :=
    ∃ i < n.2, a = x.env.messageName (x.start.journal.messages + i) ∧
      b = x.env.messageName (x.start'.journal.messages + i)
  time := Anew x.env.now x.base.calls.length

structure Marked (m m' : Exchange.Mark) : Prop where
  id : (x.naming n).exchange m.id m'.id
  thread : m.threadId = x.thread
  thread' : m'.threadId = x.thread
  version : m'.version = m.version
  createdAt : (x.naming n).time m.createdAt m'.createdAt
  updatedAt : Option.Rel (x.naming n).time m.updatedAt m'.updatedAt

structure Record (e e' : Exchange) : Prop where
  renamed : e.Renamed (x.naming n) e'
  thread : e.threadId = x.thread

-- Only what is on the thread is seen, and what has been drawn since.
structure Meets (s s' : Stores) : Prop where
  records : ∀ {a b}, (x.naming n).exchange a b →
    Option.Rel (x.Record n) (s.record? a) (s'.record? b)
  messages : ∀ {a b}, (x.naming n).exchange a b → ∀ type,
    Option.Rel (StoredMessage.Renamed (x.naming n)) (s.messages.get? (a, type))
      (s'.messages.get? (b, type))
  listed : Forall₂ (x.Record n) (s.onThread x.thread) (s'.onThread x.thread)
  vacant : ∀ i, n.1 ≤ i → s.Vacant (x.env.exchangeName (x.start.journal.exchanges + i))
  vacant' : ∀ i, n.1 ≤ i → s'.Vacant (x.env.exchangeName (x.start'.journal.exchanges + i))
  events : ∃ new new', s.events = x.start.stores.events ++ new ∧
    s'.events = x.start'.stores.events ++ new' ∧
    Forall₂ (Event.Renamed (x.naming n)) new new' ∧
    ∀ event ∈ new, event.exchange.threadId = x.thread

structure Paces (j j' : Journal) : Prop where
  exchanges : j.exchanges = x.start.journal.exchanges + n.1
  exchanges' : j'.exchanges = x.start'.journal.exchanges + n.1
  messages : j.messages = x.start.journal.messages + n.2
  messages' : j'.messages = x.start'.journal.messages + n.2
  calls : x.base.calls.length ≤ j.calls.length
  calls' : x.base.calls.length ≤ j'.calls.length
  backed : x.env.Backs j.cache
  backed' : x.env.Backs j'.cache

end Relations

def pairing (x : Rerun) : Pairing (Nat × Nat) where
  env := x.env
  env' := x.env
  version := x.task.version
  version' := x.task.version
  error n := Error.Renamed (x.naming n).exchange
  id n := (x.naming n).exchange
  mark := x.Marked
  thread t t' := t = x.thread ∧ t' = x.thread
  header n h h' := h'.thread = h.thread ∧ (x.naming n).message h.id h'.id
  message n := Message.Renamed (x.naming n)
  stores := x.Meets
  journal := x.Paces
  starts := False
  readable _ := True

-- Neither world knows a name that is still to be drawn, and on the thread they show the same.
structure Ready (x : Rerun) : Prop where
  functional : x.env.Functional
  overlooks : x.env.Overlooks (x.env.anew x.base)
  names : Function.Injective x.env.exchangeName
  earlier : x.base.Precedes x.env x.start.journal
  earlier' : x.base.Precedes x.env x.start'.journal
  onThread : x.start'.stores.onThread x.thread = x.start.stores.onThread x.thread
  messages : ∀ e ∈ x.start.stores.onThread x.thread, ∀ type,
    x.start'.stores.messages.get? (e.id, type) = x.start.stores.messages.get? (e.id, type)
  vacant : ∀ n, x.start.journal.exchanges ≤ n → x.start.stores.Vacant (x.env.exchangeName n)
  vacant' : ∀ n, x.start'.journal.exchanges ≤ n → x.start'.stores.Vacant (x.env.exchangeName n)
  backed : x.env.Backs x.start.journal.cache
  backed' : x.env.Backs x.start'.journal.cache

variable {x : Rerun} {n m : Nat × Nat}

theorem Ready.symm (h : x.Ready) : x.symm.Ready where
  functional := h.functional
  overlooks := h.overlooks
  names := h.names
  earlier := h.earlier'
  earlier' := h.earlier
  onThread := h.onThread.symm
  messages e he type := (h.messages e (h.onThread ▸ he) type).symm
  vacant := h.vacant'
  vacant' := h.vacant
  backed := h.backed'
  backed' := h.backed

theorem record_iff {e e' : Exchange} : x.pairing.Record n e e' ↔ x.Record n e e' := by
  constructor
  · rintro ⟨mark, hmark, rfl⟩
    refine ⟨⟨hmark.id, hmark.createdAt, hmark.updatedAt, ?_⟩, hmark.thread⟩
    have hthread : mark.threadId = e.threadId := hmark.thread'.trans hmark.thread.symm
    rw [Exchange.under, hthread, hmark.version]
    rfl
  · rintro ⟨hrenamed, hthread⟩
    obtain ⟨id, createdAt, updatedAt, hid, hcreated, hupdated, rfl⟩ := hrenamed.eq_with
    exact ⟨⟨id, e.threadId, e.version, createdAt, updatedAt⟩,
      ⟨hid, hthread, hthread, rfl, hcreated, hupdated⟩, rfl⟩

theorem naming_within (h : n ≤ m) : (x.naming n).Within (x.naming m) where
  exchange := by
    rintro a b (hknown | ⟨i, hi, hdrawn⟩)
    · exact .inl hknown
    · exact .inr ⟨i, Nat.lt_of_lt_of_le hi h.1, hdrawn⟩
  message := by
    rintro a b ⟨i, hi, hdrawn⟩
    exact ⟨i, Nat.lt_of_lt_of_le hi h.2, hdrawn⟩
  time _ _ h := h

-- What stands for a name has done so earlier, or both have been drawn since.
theorem naming_cases (n : Nat × Nat) {a b : String} (hab : (x.naming m).exchange a b) :
    (x.naming n).exchange a b ∨
      ∃ i, n.1 ≤ i ∧ a = x.env.exchangeName (x.start.journal.exchanges + i) ∧
        b = x.env.exchangeName (x.start'.journal.exchanges + i) := by
  obtain hknown | ⟨i, -, hdrawn⟩ := hab
  · exact .inl (.inl hknown)
  by_cases hi : i < n.1
  · exact .inl (.inr ⟨i, hi, hdrawn⟩)
  · exact .inr ⟨i, Nat.le_of_not_lt hi, hdrawn⟩

theorem Record.thread' {e e' : Exchange} (he : x.Record n e e') : e'.threadId = x.thread :=
  he.renamed.threadId.trans he.thread

theorem Record.mono {e e' : Exchange} (hm : n ≤ m) (he : x.Record n e e') : x.Record m e e' :=
  ⟨he.renamed.mono (naming_within hm), he.thread⟩

theorem Meets.place {s s' : Stores} (hs : x.Meets n s s') {a b : String}
    (hab : (x.naming n).exchange a b) :
    (∀ old, s.record? a = some old → old.threadId = x.thread) ∧
      ∀ old, s'.record? b = some old → old.threadId = x.thread := by
  have hfound := hs.records hab
  generalize s.record? a = found at hfound ⊢
  generalize s'.record? b = found' at hfound ⊢
  cases hfound with
  | none => constructor <;> rintro _ ⟨⟩
  | some he =>
    constructor
    · rintro _ ⟨⟩
      exact he.thread
    · rintro _ ⟨⟩
      exact he.thread'

theorem Meets.later {s s' : Stores} (hs : x.Meets n s s') (hm : n ≤ m) : x.Meets m s s' where
  records hab := by
    rcases naming_cases n hab with hearlier | ⟨i, hi, rfl, rfl⟩
    · exact (hs.records hearlier).imp fun _ _ he => he.mono hm
    · rw [(hs.vacant i hi).record?, (hs.vacant' i hi).record?]
      exact .none
  messages hab type := by
    rcases naming_cases n hab with hearlier | ⟨i, hi, rfl, rfl⟩
    · exact (hs.messages hearlier type).imp fun _ _ hstored => hstored.mono (naming_within hm)
    · rw [(hs.vacant i hi).messages, (hs.vacant' i hi).messages]
      exact .none
  listed := hs.listed.imp fun _ _ he => he.mono hm
  vacant i hi := hs.vacant i (Nat.le_trans hm.1 hi)
  vacant' i hi := hs.vacant' i (Nat.le_trans hm.1 hi)
  events := by
    obtain ⟨new, new', hnew, hnew', hevents, hthread⟩ := hs.events
    exact ⟨new, new', hnew, hnew', hevents.imp fun _ _ hevent => hevent.mono (naming_within hm),
      hthread⟩

theorem Meets.publish {s s' : Stores} (hs : x.Meets n s s') {event event' : Event}
    (hevent : event.Renamed (x.naming n) event') (hthread : event.exchange.threadId = x.thread) :
    x.Meets n (s.publish event) (s'.publish event') where
  records := hs.records
  messages := hs.messages
  listed := hs.listed
  vacant i hi := (hs.vacant i hi).publish event
  vacant' i hi := (hs.vacant' i hi).publish event'
  events := by
    obtain ⟨new, new', hnew, hnew', hevents, hthreads⟩ := hs.events
    refine ⟨new ++ [event], new' ++ [event'], ?_, ?_, ?_, ?_⟩
    · rw [Stores.publish, hnew, List.append_assoc]
    · rw [Stores.publish, hnew', List.append_assoc]
    · exact List.rel_append hevents (.cons hevent .nil)
    · exact List.forall_mem_append.2 ⟨hthreads, List.forall_mem_singleton.2 hthread⟩

-- Nothing has been drawn yet.
theorem Record.refl {e : Exchange} (he : e ∈ x.start.stores.onThread x.thread) : x.Record n e e :=
  ⟨.refl (.inl ⟨rfl, e, he, rfl⟩) .same, (Stores.mem_onThread.1 he).2⟩

namespace Ready

variable (h : x.Ready)
include h

-- What has a name of its own at the start is not called by one that is drawn later.
theorem known_ne {e : Exchange} (he : e ∈ x.start.stores.onThread x.thread) (i : Nat) :
    e.id ≠ x.env.exchangeName (x.start.journal.exchanges + i) := by
  intro hid
  have hvacant := (h.vacant _ (Nat.le_add_right _ i)).record?
  rw [← hid, (Stores.mem_onThread_iff.1 he).1] at hvacant
  cases hvacant

theorem known_ne' {e : Exchange} (he : e ∈ x.start.stores.onThread x.thread) (i : Nat) :
    e.id ≠ x.env.exchangeName (x.start'.journal.exchanges + i) :=
  h.symm.known_ne (h.onThread.symm ▸ he) i

-- No two names stand for one, and none stands for two.
theorem naming_inj {a b c d : String} (hab : (x.naming n).exchange a b)
    (hcd : (x.naming n).exchange c d) : a = c ↔ b = d := by
  obtain ⟨rfl, e, he, rfl⟩ | ⟨i, -, rfl, rfl⟩ := hab <;>
    obtain ⟨rfl, e', he', rfl⟩ | ⟨k, -, rfl, rfl⟩ := hcd
  · exact Iff.rfl
  · exact iff_of_false (h.known_ne he k) (h.known_ne' he k)
  · exact iff_of_false (h.known_ne he' i).symm (h.known_ne' he' i).symm
  · rw [h.names.eq_iff, h.names.eq_iff, Nat.add_left_cancel_iff, Nat.add_left_cancel_iff]

theorem naming_anew : (x.naming n).Within (x.env.anew x.base) where
  exchange := by
    rintro a b (⟨rfl, -⟩ | ⟨i, -, rfl, rfl⟩)
    · exact .same b
    · exact .drawn (Nat.le_add_right_of_le h.earlier.exchanges)
        (Nat.le_add_right_of_le h.earlier'.exchanges)
  message := by
    rintro a b ⟨i, -, rfl, rfl⟩
    exact .drawn (Nat.le_add_right_of_le h.earlier.messages)
      (Nat.le_add_right_of_le h.earlier'.messages)
  time _ _ h := h

theorem steady : x.pairing.Steady n where
  env := rfl
  functional := h.functional
  external _ := .same rfl
  backed hj := ⟨hj.backed, hj.backed'⟩
  consults hj hafter hafter' :=
    { exchanges := hafter.exchanges.trans hj.exchanges
      exchanges' := hafter'.exchanges.trans hj.exchanges'
      messages := hafter.messages.trans hj.messages
      messages' := hafter'.messages.trans hj.messages'
      calls := Nat.le_trans hj.calls hafter.calls
      calls' := Nat.le_trans hj.calls' hafter'.calls
      backed := hafter.backed
      backed' := hafter'.backed }

section Calls

open Inquiry

variable {a b : String} (hid : (x.naming n).exchange a b)

section Looking

include hid

theorem get : Related x.pairing n (Still n (· = ·)) (Inquiry.call (.get a) : Inquiry Bool)
    (Inquiry.call (.get b) : Inquiry Bool) :=
  h.steady.related (fun _ => Environment.reply_error) (call_comesTo h.functional (.get a))
    (call_comesTo h.functional (.get b))
    (congrArg (Except.mapError _) (h.overlooks.get 0 a b (h.naming_anew.exchange _ _ hid)))

theorem findMessage (type : String) : Related x.pairing n (Still n (· = ·))
    (Inquiry.call (.findMessage a type)) (Inquiry.call (.findMessage b type)) :=
  h.steady.related (fun _ => Environment.reply_error)
    (call_comesTo h.functional (.findMessage a type))
    (call_comesTo h.functional (.findMessage b type))
    (congrArg (Except.mapError _)
      (h.overlooks.findMessage 0 a b type (h.naming_anew.exchange _ _ hid)))

theorem saveMessage {m m' : Message} (party : Party) (hm : m.Renamed (x.naming n) m') :
    Related x.pairing n (Still n (· = ·)) (Inquiry.call (.saveMessage a party m))
      (Inquiry.call (.saveMessage b party m')) :=
  h.steady.related (fun _ => Environment.reply_error)
    (call_comesTo h.functional (.saveMessage a party m))
    (call_comesTo h.functional (.saveMessage b party m'))
    (congrArg (Except.mapError _) (h.overlooks.saveMessage 0 a b party m m'
      (h.naming_anew.exchange _ _ hid) (hm.mono h.naming_anew)))

end Looking

theorem put {e e' : Exchange} (he : e.Renamed (x.naming n) e') :
    Related x.pairing n (Still n (· = ·)) (Inquiry.call (.put e)) (Inquiry.call (.put e')) :=
  h.steady.related (fun _ => Environment.reply_error) (call_comesTo h.functional (.put e))
    (call_comesTo h.functional (.put e'))
    (congrArg (Except.mapError _) (h.overlooks.put 0 e e' (he.mono h.naming_anew)))

end Calls

-- A message that is looked up is found in both runs, and read alike.
theorem message? {e e' : Exchange} (he : x.Record n e e') (kind : Kind) :
    Inquiry.Related x.pairing n (Inquiry.Still n (Option.Rel (Message.Renamed (x.naming n))))
      (Inquiry.message? e kind) (Inquiry.message? e' kind) := by
  obtain ⟨id, createdAt, updatedAt, hid, -, -, rfl⟩ := he.renamed.eq_with
  refine .message? ((h.findMessage hid _).mono fun _ _ _ hsame => ⟨hsame.1, trivial⟩) ?_
  intro s s' (hs : x.Meets n s s')
  have hfound := hs.messages hid (typeUri e.version kind)
  rw [Stores.message?, Stores.message?]
  generalize s.messages.get? _ = stored at hfound ⊢
  generalize s'.messages.get? _ = stored' at hfound ⊢
  cases hfound with
  | none => exact .none
  | some hstored =>
    refine .some ?_
    cases hstored with
    | @same _ _ _ _ value =>
      refine ((Nameless.ofJson value).self fun _ => .same).imp (fun _ _ h => h) ?_
      rintro m _ rfl
      exact .same m
    | made _ renewed plain hname =>
      rw [Message.ofJson_toJson plain, Message.ofJson_toJson (renewed.plain plain)]
      exact .ok (.made renewed plain hname)

end Ready

theorem draws : x.pairing.Draws n where
  newThread := False.elim
  newRecord {thread thread'} role state connection := by
    rintro ⟨rfl, hthread'⟩ s s' j j' - (hj : x.Paces n j j')
    refine ⟨(n.1 + 1, n.2), ⟨Nat.le_succ _, Nat.le_refl _⟩, ?_, .ok (.new ?_ role state connection)⟩
    · exact { hj with
        exchanges := congrArg (· + 1) hj.exchanges
        exchanges' := congrArg (· + 1) hj.exchanges' }
    · refine ⟨.inr ⟨n.1, Nat.lt_succ_self _, ?_, ?_⟩, rfl, hthread', rfl, ?_, .none⟩
      · exact congrArg x.env.exchangeName hj.exchanges
      · exact congrArg x.env.exchangeName hj.exchanges'
      · exact .drawn hj.calls hj.calls'
  reply := by
    rintro e e' he s s' j j' - (hj : x.Paces n j j')
    have hthread := (record_iff.1 he).renamed.threadId
    refine ⟨(n.1, n.2 + 1), ⟨Nat.le_refl _, Nat.le_succ _⟩, ?_, .ok ⟨?_, ?_⟩⟩
    · exact { hj with
        messages := congrArg (· + 1) hj.messages
        messages' := congrArg (· + 1) hj.messages' }
    · exact congrArg (fun thread => some (Thread.mk thread none)) hthread
    · exact ⟨n.2, Nat.lt_succ_self _, congrArg x.env.messageName hj.messages,
        congrArg x.env.messageName hj.messages'⟩

-- What is made with two names that stand for each other.
theorem made {header header' : Header} (hheader : x.pairing.header n header header')
    {m m' : Message} (renewed : m.Renewed m') (plain : m.Plain) (own : m.header = header)
    (own' : m'.header = header') : m.Renamed (x.naming n) m' := by
  refine .made renewed plain ?_
  rw [own, own']
  exact hheader.2

theorem composes : x.pairing.Composes n where
  opening := False.elim
  propose proposal hheader :=
    made hheader (Version.propose_renewed hheader.1 proposal) (Version.propose_plain _ _ _)
      (Version.propose_is ..).2 (Version.propose_is ..).2
  offer payload details hheader :=
    made hheader (Version.offer_renewed hheader.1 payload details) (Version.offer_plain _ _ _ _)
      (Version.offer_is ..).2 (Version.offer_is ..).2
  request payload hheader hoffer :=
    made hheader (Version.request_renewed hheader.1 hoffer.renewed payload)
      (Version.request_plain _ _ _ _) (Version.request_is ..).2 (Version.request_is ..).2
  issue payload comment hheader hoffer :=
    made hheader (Version.issue_renewed hheader.1 hoffer.renewed payload comment)
      (Version.issue_plain _ _ _ _ _) (Version.issue_is ..).2 (Version.issue_is ..).2
  ack hheader := made hheader ⟨rfl, hheader.1⟩ (Message.plain_of_encoded nofun) rfl rfl
  problemReport _ _ hheader :=
    made hheader ⟨rfl, hheader.1⟩ (Message.plain_of_encoded nofun) rfl rfl

namespace Ready

variable (h : x.Ready)
include h

theorem sound : x.pairing.Sound n where
  toAsks := h.steady.asks
  shows hid := h.get hid
  record? hs hid := (hs.records hid).imp fun _ _ he => record_iff.2 he
  listed := by
    rintro s s' thread (hs : x.Meets n s s') ⟨rfl, -⟩
    exact hs.listed.imp fun _ _ he => record_iff.2 he
  message? he _ := h.message? (record_iff.1 he) _
  toDraws := draws
  toComposes := composes
  error hxy := hxy
  id hmark := hmark.id
  threadId hmark := hmark.thread'.trans hmark.thread.symm
  assertVersion := by
    rintro e _ ⟨mark, hmark, rfl⟩
    have hversion : (e.under mark).version = e.version := hmark.version
    show Concur _ _ (e.assertVersion x.task.version) ((e.under mark).assertVersion x.task.version)
    rw [Exchange.assertVersion, Exchange.assertVersion, hversion]
    split
    · exact .ok rfl
    · exact .error (.named rfl hmark.id)
  reads hm := hm.renewed.reads rfl fun _ => .same
  later hm hmessage := hmessage.mono (naming_within hm)

-- A name that is still to be drawn does not stand for another one yet.
theorem naming_ne {a b : String} (hab : (x.naming n).exchange a b) {i : Nat} (hi : n.1 ≤ i) :
    a ≠ x.env.exchangeName (x.start.journal.exchanges + i) ∧
      b ≠ x.env.exchangeName (x.start'.journal.exchanges + i) := by
  obtain ⟨rfl, e, he, rfl⟩ | ⟨k, hk, rfl, rfl⟩ := hab
  · exact ⟨h.known_ne he i, h.known_ne' he i⟩
  · rw [h.names.ne_iff, h.names.ne_iff]
    omega

section Meets

variable {s s' : Stores} (hs : x.Meets n s s')
include hs

theorem meets_put {e e' : Exchange} (he : x.Record n e e') : x.Meets n (s.put e) (s'.put e') where
  records {a b} hab := by
    have hids := h.naming_inj he.renamed.id hab
    rw [Stores.record?, Stores.record?, Stores.put, Stores.put, Table.get?_put, Table.get?_put]
    by_cases hid : e.id = a
    · rw [if_pos hid, if_pos (hids.1 hid)]
      exact .some he
    · rw [if_neg hid, if_neg fun hid' => hid (hids.2 hid')]
      exact hs.records hab
  messages := hs.messages
  listed := by
    obtain ⟨hplace, hplace'⟩ := hs.place he.renamed.id
    rw [Stores.onThread_put he.thread hplace, Stores.onThread_put he.thread' hplace']
    refine Table.forall₂_upsert (fun a b c d hab hcd => ?_) hs.listed he
    exact h.naming_inj hab.renamed.id hcd.renamed.id
  vacant i hi := (hs.vacant i hi).put (h.naming_ne he.renamed.id hi).1
  vacant' i hi := (hs.vacant' i hi).put (h.naming_ne he.renamed.id hi).2
  events := hs.events

theorem meets_putMessage {stored stored' : StoredMessage}
    (hstored : stored.Renamed (x.naming n) stored') :
    x.Meets n (s.putMessage stored) (s'.putMessage stored') where
  records := hs.records
  messages {a b} hab type := by
    have hkeys : stored.key = (a, type) ↔ stored'.key = (b, type) := by
      rw [StoredMessage.key, StoredMessage.key, Prod.mk.injEq, Prod.mk.injEq, hstored.type,
        h.naming_inj hstored.exchange hab]
    rw [Stores.putMessage, Stores.putMessage, Table.get?_put, Table.get?_put]
    by_cases hkey : stored.key = (a, type)
    · rw [if_pos hkey, if_pos (hkeys.1 hkey)]
      exact .some hstored
    · rw [if_neg hkey, if_neg fun hkey' => hkey (hkeys.2 hkey')]
      exact hs.messages hab type
  listed := hs.listed
  vacant i hi := (hs.vacant i hi).putMessage (h.naming_ne hstored.exchange hi).1
  vacant' i hi := (hs.vacant' i hi).putMessage (h.naming_ne hstored.exchange hi).2
  events := hs.events

end Meets

theorem lasting : x.pairing.Lasting where
  sound _ := h.sound
  readable _ := trivial
  stores hm hs := hs.later hm
  mark hm hmark :=
    { hmark with
      id := (naming_within hm).exchange _ _ hmark.id }
  now := by
    rintro n s s' j j' - (hj : x.Paces n j j')
    refine ⟨n, le_refl n, hj, .ok ⟨rfl, fun hmark => ?_⟩⟩
    exact { hmark with updatedAt := .some (.drawn hj.calls hj.calls') }
  save party hid hm := (h.saveMessage hid party hm).mono fun _ _ _ hsame => ⟨hsame.1, trivial⟩
  saved party hid hm hs := by
    rw [hm.renewed.type]
    exact h.meets_putMessage hs (hm.stored hid)
  put he := (h.put (record_iff.1 he).renamed).mono fun _ _ _ hsame => ⟨hsame.1, trivial⟩
  kept he hs := h.meets_put hs (record_iff.1 he)
  publish _ _ hj :=
    { hj with
      calls := Nat.le_trans hj.calls (by simp [Journal.asked])
      calls' := Nat.le_trans hj.calls' (by simp [Journal.asked]) }
  published _ he hs :=
    Meets.publish hs ⟨(record_iff.1 he).renamed, rfl⟩ (record_iff.1 he).thread

theorem meets : x.Meets (0, 0) x.start.stores x.start'.stores where
  records {a b} hab := by
    obtain ⟨rfl, e, he, rfl⟩ | ⟨i, hi, -⟩ := hab
    · have he' : e ∈ x.start'.stores.onThread x.thread := h.onThread.symm ▸ he
      rw [(Stores.mem_onThread_iff.1 he).1, (Stores.mem_onThread_iff.1 he').1]
      exact .some (.refl he)
    · exact absurd hi (Nat.not_lt_zero i)
  messages {a b} hab type := by
    obtain ⟨rfl, e, he, rfl⟩ | ⟨i, hi, -⟩ := hab
    · rw [h.messages e he]
      have hid : (x.naming (0, 0)).exchange e.id e.id := .inl ⟨rfl, e, he, rfl⟩
      exact StoredMessage.Renamed.self hid x.start.stores type
    · exact absurd hi (Nat.not_lt_zero i)
  listed := by
    rw [h.onThread]
    exact List.forall₂_same.2 fun e he => .refl he
  vacant i _ := h.vacant _ (Nat.le_add_right _ i)
  vacant' i _ := h.vacant' _ (Nat.le_add_right _ i)
  events := ⟨[], [], (List.append_nil _).symm, (List.append_nil _).symm, .nil,
    List.forall_mem_nil _⟩

theorem paces : x.Paces (0, 0) x.start.journal x.start'.journal :=
  ⟨rfl, rfl, rfl, rfl, h.earlier.calls, h.earlier'.calls, h.backed, h.backed'⟩

omit h in
theorem paired {operation : Operation} (on : operation.On x.thread x.start.stores) :
    operation.Paired x.pairing (0, 0) operation := by
  rcases on.cases with ⟨kind, inbound, rfl, hthread⟩ | ⟨e, named, hstored, hthread⟩
  · exact .receive kind ⟨.same _, ⟨hthread, hthread⟩, rfl, rfl, rfl⟩
  · have hid : x.pairing.id (0, 0) e.id e.id :=
      .inl ⟨rfl, e, Stores.mem_onThread_iff.2 ⟨hstored, hthread⟩, rfl⟩
    cases operation with
    | propose | offer | receive => cases named
    | answerProposal =>
      cases named
      exact .answerProposal hid ..
    | request =>
      cases named
      exact .request hid trivial ..
    | issue =>
      cases named
      exact .issue hid trivial trivial ..
    | acknowledge =>
      cases named
      exact .acknowledge hid
    | decline =>
      cases named
      exact .decline hid _

theorem run_related (on : x.task.On x.thread x.start.stores) :
    Action.Related x.pairing (0, 0)
      (fun n => Sum.LiftRel (Outcome.Renamed (x.naming n))
        (Option.Rel (Outbound.Renamed (x.naming n)))) x.task.run x.task.run := by
  have hlasting := h.lasting
  cases htask : x.task with
  | operate version operation =>
    rw [htask] at on
    obtain rfl : x.task.version = version := by rw [htask, Task.version]
    refine .bind (hlasting.run (paired on)) fun n o o' _ ho => .pure (.inl ?_)
    exact ⟨ho.1, (record_iff.1 ho.2).renamed⟩
  | dispatch inbound =>
    rw [htask] at on
    have hversion : inbound.message.version = x.task.version := by rw [htask, Task.version]
    have hinbound : inbound.Paired x.pairing (0, 0) inbound :=
      ⟨.same _, ⟨on, on⟩, rfl, rfl, rfl⟩
    refine .bind (hlasting.dispatch hinbound hversion hversion) fun n o o' _ ho => .pure (.inr ?_)
    exact ho.imp fun _ _ hsent => ⟨hsent.1, hsent.2⟩

-- Whatever the task does in one world, it does in the other one.
theorem run (on : x.task.On x.thread x.start.stores) :
    ∃ n, x.Meets n (x.task.run x.env x.start).2.stores (x.task.run x.env x.start').2.stores ∧
      x.Paces n (x.task.run x.env x.start).2.journal (x.task.run x.env x.start').2.journal ∧
      Task.Agree (x.naming n) (x.task.run x.env x.start).1 (x.task.run x.env x.start').1 := by
  obtain ⟨n, -, hrun⟩ := h.run_related on h.meets h.paces
  exact ⟨n, hrun⟩

-- What has stood for a name by the end has been found on the thread or drawn by then.
theorem untouched {w w' : World} (hs : x.Meets n w.stores w'.stores)
    (hj : x.Paces n w.journal w'.journal) {a b : String} (hab : (x.naming n).exchange a b)
    {other : String} (hother : other ≠ x.thread) (after : World) :
    a ∉ w.Touched x.env other after ∧ b ∉ w'.Touched x.env other after := by
  obtain ⟨hplace, hplace'⟩ := hs.place hab
  constructor
  · refine World.not_touched (fun e he hthread => hother ?_) (fun k hk hname => ?_) after
    · exact hthread.symm.trans (hplace e he)
    · obtain ⟨i, rfl⟩ := Nat.exists_eq_add_of_le hk
      rw [hj.exchanges, Nat.add_assoc] at hname
      exact (h.naming_ne hab (Nat.le_add_right _ i)).1 hname.symm
  · refine World.not_touched (fun e he hthread => hother ?_) (fun k hk hname => ?_) after
    · exact hthread.symm.trans (hplace' e he)
    · obtain ⟨i, rfl⟩ := Nat.exists_eq_add_of_le hk
      rw [hj.exchanges', Nat.add_assoc] at hname
      exact (h.naming_ne hab (Nat.le_add_right _ i)).2 hname.symm

end Ready

end Rerun

end CredentialIssuance
