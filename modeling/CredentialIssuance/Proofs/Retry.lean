import CredentialIssuance.Proofs.Attempt
import CredentialIssuance.Proofs.Backing
import CredentialIssuance.Proofs.Frame

namespace CredentialIssuance

-- Collaborators that can be relied on. They answer the same at any time, and what is to be stored
-- is stored.
structure Environment.Works (env : Environment) : Prop where
  functional : env.Functional
  puts : ∀ n e, env.answer n (.put e) = .ok ()
  saves : ∀ n exchange party m, env.answer n (.saveMessage exchange party m) = .ok ()

theorem Environment.steady_works (mark : Char) : (steady mark).Works where
  functional _ _ _ := rfl
  puts _ _ := rfl
  saves _ _ _ _ := rfl

-- The stores after a step that leads to the outcome.
def Outcome.written (o : Outcome) (party : Party) (previous : Option State) (s : Stores) : Stores :=
  ((s.putMessage ⟨o.record.id, o.message.type, some party, o.message.toJson⟩).put o.record).publish
    ⟨o.record, previous⟩

-- What is different when an operation is carried out again: nothing but the names that are drawn,
-- and the times.
structure Outcome.RepeatedBy (env : Environment) (w w' : World) (party : Party)
    (outcome again : Outcome) : Prop where
  message : outcome.message.Renewed again.message
  thread : again.message.threadId = again.record.threadId
  received : party = .receiver → again.message = outcome.message
  moved : ∀ old, w.stores.record? outcome.record.id = some old →
    ∃ now now', outcome.record.updatedAt = some now ∧
      again.record = { outcome.record with updatedAt := some now' }
  opened : w.stores.record? outcome.record.id = none →
    outcome.record.Renewed again.record ∧
      outcome.record.id = env.exchangeName w.journal.exchanges ∧
      again.record.id = env.exchangeName w'.journal.exchanges ∧
      (party = .sender → outcome.record.threadId = env.threadName w.journal.threads ∧
        again.record.threadId = env.threadName w'.journal.threads)

-- Of two entries that are put under one key the second one counts.
theorem Table.put_put {α κ : Type} [DecidableEq κ] {key : α → κ} (t : Table key) {a b : α}
    (same : key a = key b) : (t.put a).put b = t.put b := by
  have hupsert (entries : List α) : upsert key b (upsert key a entries) = upsert key b entries := by
    induction entries with
    | nil => simp [upsert, same]
    | cons old rest ih =>
      by_cases hold : key old = key b
      · simp [upsert, hold, same]
      · simp [upsert, hold, same, ih]
  unfold put
  simp only [hupsert]

section Written

variable {o : Outcome} {party : Party} {previous : Option State} {s : Stores} {m : StoredMessage}

-- A message that has been left at the place of the step's own message is gone.
theorem Outcome.written_putMessage (same : m.key = (o.record.id, o.message.type)) :
    o.written party previous (s.putMessage m) = o.written party previous s := by
  have hput := s.messages.put_put (a := m)
    (b := ⟨o.record.id, o.message.type, some party, o.message.toJson⟩) same
  simp only [written, Stores.putMessage, hput]

theorem Outcome.record?_written (id : String) :
    (o.written party previous s).record? id =
      if o.record.id = id then some o.record else s.record? id :=
  s.records.get?_put o.record id

end Written

section Commit

variable {env : Environment} {c c' : Change} {w w' after : World} {e : Exchange}

-- A record is found when it is replaced.
theorem Action.replace_found (h : Action.replace e env w = (.ok (), after)) :
    ∃ n old, env.answer n (.get e.id) = .ok true ∧ w.stores.record? e.id = some old := by
  unfold replace at h
  rw [lift_bind_apply] at h
  split at h
  · next old journal hrecord =>
    obtain ⟨hanswer, hfound, -⟩ := Inquiry.record_eq_ok_iff.1 hrecord
    exact ⟨_, old, hanswer, hfound⟩
  · cases h

theorem Action.replace_works (works : env.Works) {n : Nat} {old : Exchange}
    (shown : env.answer n (.get e.id) = .ok true) (stored : w.stores.record? e.id = some old) :
    ∃ after, Action.replace e env w = (.ok (), after) := by
  have hrecord : Inquiry.record e.id env w.stores w.journal =
      (.ok old, w.journal.asked (.get e.id)) := by
    refine Inquiry.record_eq_ok_iff.2 ⟨?_, stored, rfl⟩
    rw [works.functional _ n]
    exact shown
  unfold replace
  rw [lift_bind_apply, hrecord]
  simp only [put_apply, works.puts]
  exact ⟨_, rfl⟩

-- The record that a change moves is found when it is to be replaced.
theorem Change.commit_found (h : c.commit env w = (.ok e, after)) {next : State}
    (hnext : c.next = some next) :
    ∃ n old, env.answer n (.get c.record.id) = .ok true ∧
      w.stores.record? c.record.id = some old := by
  unfold commit at h
  obtain ⟨_, saved, hsave, h⟩ := Action.bind_eq_ok_iff.1 h
  have hstores := (Action.saveMessage_ok hsave).1
  simp only [hnext] at h
  obtain ⟨now, _, hnow, h⟩ := Action.bind_eq_ok_iff.1 h
  cases hnow
  obtain ⟨record, _, hlift, h⟩ := Action.bind_eq_ok_iff.1 h
  obtain ⟨hadvance, rfl⟩ := Action.lift_ok hlift
  have hid : record.id = c.record.id := by rw [(Exchange.advance_ok hadvance).2.2]
  obtain ⟨_, kept, hreplace, -⟩ := Action.bind_eq_ok_iff.1 h
  obtain ⟨n, old, hanswer, hfound⟩ := Action.replace_found hreplace
  rw [hid] at hanswer hfound
  rw [hstores] at hfound
  exact ⟨n, old, hanswer, hfound⟩

-- A change that could be carried out can be carried out again, in another world with the same
-- records.
theorem Change.commit_again (works : env.Works) (h : c.commit env w = (.ok e, after))
    (renewed : c.Renewed c') (records : w'.stores.records = w.stores.records) :
    ∃ e' after', c'.commit env w' = (.ok e', after') := by
  unfold commit
  rw [Action.bind_apply, Action.saveMessage_apply, works.saves]
  simp only [renewed.next]
  cases hnext : c.next with
  | none =>
    simp only
    rw [Action.bind_apply, Action.put_apply, works.puts]
    exact ⟨_, _, rfl⟩
  | some next =>
    have hmoved : c'.record = c.record := renewed.moved hnext
    obtain ⟨n, old, hanswer, hfound⟩ := commit_found h hnext
    obtain ⟨earlier, hadvance⟩ : c.record.Reaches (some next) e := hnext ▸ (commit_ok h).record
    obtain ⟨hopen, hrises, -⟩ := Exchange.advance_ok hadvance
    have hadvance (now : Timestamp) :
        c'.record.advance next now =
          .ok { c'.record with state := next, updatedAt := some now } := by
      rw [hmoved, Exchange.advance, if_neg]
      simp only [hopen, Bool.false_eq_true, false_or, Nat.not_le]
      exact hrises
    rw [← hmoved] at hanswer hfound
    have hreplace (journal : Journal) (m : StoredMessage) (now : Timestamp) :
        ∃ after', Action.replace { c'.record with state := next, updatedAt := some now } env
          ⟨w'.stores.putMessage m, journal⟩ = (.ok (), after') := by
      have hstored : (w'.stores.putMessage m).record? c'.record.id = some old := by
        rw [Stores.record?, Stores.putMessage, records]
        exact hfound
      exact Action.replace_works works hanswer hstored
    simp only
    rw [Action.lift_bind_apply]
    simp only [Inquiry.now, hadvance]
    show ∃ e' after', Action.bind (Action.replace _) _ env _ = (.ok e', after')
    obtain ⟨after', hkept⟩ := hreplace _ _ _
    rw [Action.bind, hkept]
    exact ⟨_, _, rfl⟩

end Commit

section Steps

variable {env : Environment} {w w' after after' : World} {version : Version} {operation : Operation}
  {c c' : Change} {outcome again : Outcome}

-- What is taken in is given.
theorem Operation.Carries.eq {m m' : Message} (h : operation.Carries m) (h' : operation.Carries m')
    (taken : operation.party = .receiver) : m' = m := by
  cases operation with
  | receive kind inbound =>
    have hm : m = inbound.message := h
    have hm' : m' = inbound.message := h'
    rw [hm, hm']
  | _ => cases taken

theorem Planned.fills {s : Stores} {j k : Journal} (h : Planned env s j k version operation c) :
    operation.Fills c.savedMessage.key := by
  intro own
  rw [← h.carries.kind own]
  exact ⟨c.message.version, rfl⟩

section Moving

variable (fresh : w.stores.record? (env.exchangeName w.journal.exchanges) = none)
  (step : Step env w after version operation outcome c.previous)
include fresh step

-- A record that is there is moved, and one that is not is opened.
theorem Step.moving {old : Exchange} (stored : w.stores.record? outcome.record.id = some old) :
    ∃ next, c.next = some next := by
  have hprevious := step.previous_eq fresh
  rw [stored, Option.map_some] at hprevious
  obtain ⟨next, hnext, -⟩ := Option.map_eq_some_iff.1 hprevious.symm
  exact ⟨next, hnext⟩

theorem Step.opening (missing : w.stores.record? outcome.record.id = none) : c.next = none := by
  have hprevious := step.previous_eq fresh
  rw [missing, Option.map_none] at hprevious
  exact Option.map_eq_none_iff.1 hprevious.symm

-- Two steps by which a change and its repetition are carried out.
theorem Step.repeated (step' : Step env w' after' version operation again c'.previous)
    (message : outcome.message = c.message) (message' : again.message = c'.message)
    (reaches : c.record.Reaches c.next outcome.record)
    (reaches' : c'.record.Reaches c'.next again.record) (renewed : c.Renewed c') :
    outcome.RepeatedBy env w w' operation.party again := by
  rw [renewed.next] at reaches'
  refine ⟨message ▸ message' ▸ renewed.message, step'.thread,
    step.carries.eq step'.carries, ?moved, ?opened⟩
  case moved =>
    intro old hold
    obtain ⟨next, hnext⟩ := step.moving fresh hold
    have hmoved : c'.record = c.record := renewed.moved hnext
    rw [hmoved, hnext] at reaches'
    rw [hnext] at reaches
    obtain ⟨now, hadvance⟩ := reaches
    obtain ⟨now', hadvance'⟩ := reaches'
    have hrecord := (Exchange.advance_ok hadvance).2.2
    refine ⟨now, now', by rw [hrecord], ?_⟩
    rw [hrecord]
    exact (Exchange.advance_ok hadvance').2.2
  case opened =>
    intro hnone
    have hnext : c.next = none := step.opening fresh hnone
    have hprevious : c.previous = none := by
      rw [Change.previous, hnext]
      rfl
    have hopens := step.opens hprevious
    have hopens' := step'.opens (renewed.previous.trans hprevious)
    rw [hnext] at reaches reaches'
    have hrecord : outcome.record = c.record := reaches
    have hrecord' : again.record = c'.record := reaches'
    refine ⟨?_, hopens.id, hopens'.id, fun own =>
      ⟨(hopens.started own).1, (hopens'.started own).1⟩⟩
    rw [hrecord, hrecord']
    exact renewed.record

end Moving

end Steps

-- The stored record that an operation is about, which does not depend on what collaborators say.
def Inbound.subject (config : Config) (s : Stores) (kind : Kind) (inbound : Inbound) :
    Option Exchange :=
  let thread := inbound.message.threadId
  let find (role : Option Role) (connection : Option String) :=
    Inquiry.select thread role connection (s.onThread thread)
  let found : Except Error (Option Exchange) := match kind with
    | .propose => .ok none
    | .offer | .issue => find (some .holder) inbound.connectionId
    | .ack => find (some .issuer) inbound.connectionId
    | .request =>
      Inquiry.preferBound config.connectionlessId (find (some .issuer)) inbound.connectionId
    | .problemReport => Inquiry.preferBound config.connectionlessId (find none) inbound.connectionId
  found.toOption.join

section Subject

open Inquiry

variable {env : Environment} {s : Stores} {j after : Journal} {version : Version} {c : Change}

theorem Inquiry.bound_ok {thread : String} {role : Option Role} {connection : Option String}
    {found : Option Exchange}
    (h : bound thread role connection env s j = (.ok found, after)) :
    preferBound env.config.connectionlessId
      (fun connection => select thread role connection (s.onThread thread)) connection =
        .ok found := by
  obtain ⟨_, _, hconfig, h⟩ := bind_eq_ok_iff.1 h
  cases hconfig
  cases connection with
  | none => exact (onThread_eq_ok_iff.1 h).2.1
  | some connection =>
    obtain ⟨first, _, hfirst, h⟩ := bind_eq_ok_iff.1 h
    have hselect := (onThread_eq_ok_iff.1 hfirst).2.1
    simp only [preferBound, hselect]
    cases first with
    | some e => exact congrArg Except.ok (pure_eq_ok_iff.1 h).1
    | none => exact (onThread_eq_ok_iff.1 h).2.1

-- The record that an operation is about, by its identifier.
def Operation.subject (config : Config) (s : Stores) : Operation → Option String
  | .receive kind inbound => (inbound.subject config s kind).map Exchange.id
  | operation => operation.exchange?

theorem Operation.receive_subject {kind : Kind} {inbound : Inbound}
    (h : (Operation.receive kind inbound).plan version env s j = (.ok c, after)) :
    (c.next.map fun _ => c.record.id) = (inbound.subject env.config s kind).map Exchange.id := by
  unfold Inbound.subject
  dsimp only
  cases kind with
  | propose =>
    obtain ⟨-, -, _, _, _, -, -, -, rfl, -⟩ := Issuer.receiveProposal_ok h
    rfl
  | offer =>
    obtain ⟨_, -, h⟩ := lift_bind_ok h
    obtain ⟨_, -, h⟩ := lift_bind_ok h
    obtain ⟨found, _, hfound, h⟩ := bind_eq_ok_iff.1 h
    rw [(onThread_eq_ok_iff.1 hfound).2.1]
    cases found with
    | some e =>
      obtain ⟨_, -, h⟩ := lift_bind_ok h
      obtain ⟨_, -, h⟩ := lift_bind_ok h
      obtain ⟨rfl, -⟩ := pure_eq_ok_iff.1 h
      rfl
    | none =>
      obtain ⟨_, -, h⟩ := lift_bind_ok h
      obtain ⟨_, _, -, h⟩ := bind_eq_ok_iff.1 h
      obtain ⟨rfl, -⟩ := pure_eq_ok_iff.1 h
      rfl
  | request =>
    obtain ⟨_, -, h⟩ := lift_bind_ok h
    obtain ⟨connection, hready, h⟩ := lift_bind_ok h
    obtain ⟨found, _, hfound, h⟩ := bind_eq_ok_iff.1 h
    rw [Inbound.connectionId, (Inbound.ready_ok hready).1, Option.map_some, bound_ok hfound]
    cases found with
    | some e =>
      obtain ⟨_, -, h⟩ := lift_bind_ok h
      obtain ⟨_, -, h⟩ := lift_bind_ok h
      obtain ⟨rfl, -⟩ := pure_eq_ok_iff.1 h
      rfl
    | none =>
      obtain ⟨other, _, -, h⟩ := bind_eq_ok_iff.1 h
      cases other with
      | some other => exact absurd h fail_ne_ok
      | none =>
        obtain ⟨_, _, -, h⟩ := bind_eq_ok_iff.1 h
        obtain ⟨rfl, -⟩ := pure_eq_ok_iff.1 h
        rfl
  | issue =>
    obtain ⟨_, -, h⟩ := lift_bind_ok h
    obtain ⟨_, -, h⟩ := lift_bind_ok h
    obtain ⟨found, _, hfound, h⟩ := bind_eq_ok_iff.1 h
    obtain ⟨e, hsome, h⟩ := require_bind_ok h
    rw [(onThread_eq_ok_iff.1 hfound).2.1, hsome]
    obtain ⟨_, -, h⟩ := lift_bind_ok h
    obtain ⟨_, -, h⟩ := lift_bind_ok h
    obtain ⟨_, -, h⟩ := require_bind_ok h
    obtain ⟨_, _, -, h⟩ := bind_eq_ok_iff.1 h
    obtain ⟨_, _, -, h⟩ := bind_eq_ok_iff.1 h
    obtain ⟨_, _, -, h⟩ := bind_eq_ok_iff.1 h
    obtain ⟨_, _, -, h⟩ := bind_eq_ok_iff.1 h
    obtain ⟨_, _, -, h⟩ := bind_eq_ok_iff.1 h
    obtain ⟨rfl, -⟩ := pure_eq_ok_iff.1 h
    rfl
  | ack =>
    simp only [plan, Issuer.receiveAck] at h
    split at h
    · exact absurd h fail_ne_ok
    · obtain ⟨found, _, hfound, h⟩ := bind_eq_ok_iff.1 h
      obtain ⟨e, hsome, h⟩ := require_bind_ok h
      rw [(onThread_eq_ok_iff.1 hfound).2.1, hsome]
      obtain ⟨_, -, h⟩ := lift_bind_ok h
      obtain ⟨_, -, h⟩ := lift_bind_ok h
      obtain ⟨rfl, -⟩ := pure_eq_ok_iff.1 h
      rfl
  | problemReport =>
    obtain ⟨found, _, hfound, h⟩ := bind_eq_ok_iff.1 h
    obtain ⟨e, hsome, h⟩ := require_bind_ok h
    rw [bound_ok hfound, hsome]
    obtain ⟨_, -, h⟩ := lift_bind_ok h
    obtain ⟨_, -, h⟩ := lift_bind_ok h
    obtain ⟨rfl, -⟩ := pure_eq_ok_iff.1 h
    rfl

-- A change that opens a record is about none, and any other moves the one that is found.
theorem Operation.plan_subject {operation : Operation}
    (h : operation.plan version env s j = (.ok c, after)) :
    (c.next.map fun _ => c.record.id) = operation.subject env.config s := by
  have hnamed {id : String} (named : operation.exchange? = some id) :
      (c.next.map fun _ => c.record.id) = some id := by
    obtain ⟨rfl, next, hnext⟩ := plan_named named h
    rw [hnext]
    rfl
  cases operation with
  | propose =>
    obtain ⟨_, rfl, -⟩ := Holder.propose_ok h
    rfl
  | offer =>
    obtain ⟨_, _, rfl, -⟩ := Issuer.offer_ok h
    rfl
  | receive => exact receive_subject h
  | _ => exact hnamed rfl

end Subject

namespace Operation

variable {env env' : Environment} {w failed after : World} {version : Version} {operation : Operation}
  {c c' : Change} {outcome : Outcome} {x : Error}

-- The type of the message is fixed before anything is looked up.
theorem plan_type {s s' : Stores} {j j' k k' : Journal}
    (h : operation.plan version env s j = (.ok c, k))
    (h' : operation.plan version env' s' j' = (.ok c', k')) : c'.message.type = c.message.type := by
  have hplanned := plan_ok h
  have hplanned' := plan_ok h'
  cases hparty : operation.party with
  | sender =>
    have hversion := (plan_belongs (.of_sends hparty) h).version
    have hversion' := (plan_belongs (.of_sends hparty) h').version
    rw [Message.type, Message.type, hversion, hversion', hplanned.version, hplanned'.version,
      hplanned.carries.kind hparty, hplanned'.carries.kind hparty]
  | receiver => rw [hplanned.carries.eq hplanned'.carries hparty]

-- What a failed attempt leaves behind in the stores is nothing but its message.
theorem run_error_stores (h : operation.run version env w = (.error x, failed)) :
    ∃ key, operation.Fills key ∧ w.stores.Besides key failed.stores ∧
      (failed.stores = w.stores ∨
        ∃ c journal, operation.plan version env w.stores w.journal = (.ok c, journal) ∧
          failed.stores = w.stores.putMessage c.savedMessage ∧
          failed.journal.exchanges = journal.exchanges) := by
  have hplace : operation.Fills ("", typeUri version operation.kind) := fun _ => ⟨version, rfl⟩
  rcases run_eq_error h with ⟨journal, -, rfl⟩ | ⟨c, journal, hplan, hcommit⟩
  · exact ⟨_, hplace, .refl _ _, .inl rfl⟩
  · obtain ⟨hrecords, hevents, hmessages, -, -, hexchanges⟩ := Change.commit_error hcommit
    obtain ⟨⟨records, messages, events⟩, failedJournal⟩ := failed
    cases hrecords
    cases hevents
    rcases hmessages with hsame | hsaved
    · cases hsame
      exact ⟨_, hplace, .refl _ _, .inl rfl⟩
    · cases hsaved
      exact ⟨c.savedMessage.key, (plan_ok hplan).fills, .putMessage _ _,
        .inr ⟨c, journal, hplan, rfl, hexchanges⟩⟩

-- What has been done once can be done again, where nothing is different but a message that is not
-- read.
theorem run_again {w' : World} {key : String × String} (works : env.Works)
    (fresh : w.stores.record? (env.exchangeName w.journal.exchanges) = none)
    (backed : env.Backs w.journal.cache) (backed' : env.Backs w'.journal.cache)
    (besides : w.stores.Besides key w'.stores) (fills : operation.Fills key)
    (single : operation.run version env w = (.ok outcome, after)) :
    ∃ again after', operation.run version env w' = (.ok again, after') ∧
      outcome.RepeatedBy env w w' operation.party again ∧
      after.stores = outcome.written operation.party
        ((w.stores.record? outcome.record.id).map Exchange.state) w.stores ∧
      after'.stores = again.written operation.party
        ((w.stores.record? outcome.record.id).map Exchange.state) w'.stores := by
  obtain ⟨c, j, hplan, hcommit, hmessage⟩ := run_eq_ok single
  obtain ⟨c', j', hplan', hc⟩ :=
    plan_renewed works.functional fills besides backed backed' hplan
  obtain ⟨e', after', hcommit'⟩ : ∃ e' after', c'.commit env ⟨w'.stores, j'⟩ = (.ok e', after') :=
    Change.commit_again works hcommit hc besides.records
  have hrun : operation.run version env w' = (.ok ⟨c'.message, e'⟩, after') := by
    unfold run
    rw [Action.lift_bind_apply, hplan']
    simp only
    rw [Action.bind_apply, hcommit']
    rfl
  obtain ⟨c₁, j₁, hplan₁, -, hreaches, hstep⟩ := run_planned single
  cases hplan.symm.trans hplan₁
  obtain ⟨c₂, j₂, hplan₂, -, hreaches', hstep'⟩ := run_planned hrun
  cases hplan'.symm.trans hplan₂
  have hrepeated := hstep.repeated fresh hstep' hmessage rfl hreaches hreaches' hc
  have hprevious := hstep.previous_eq fresh
  have hstores := hstep'.stores
  rw [hc.previous, ← hprevious] at hstores
  exact ⟨⟨c'.message, e'⟩, after', hrun, hrepeated, hprevious ▸ hstep.stores, hstores⟩

-- What an attempt plans is about the record that another attempt has led to, unless each of the two
-- opens one of its own.
theorem plan_place (config : env'.config = env.config)
    (fresh : w.stores.record? (env.exchangeName w.journal.exchanges) = none)
    (single : operation.run version env w = (.ok outcome, after)) {j : Journal}
    (h : operation.plan version env' w.stores w.journal = (.ok c, j)) :
    c.next = none ∧ w.stores.record? outcome.record.id = none ∨
      (∃ old, w.stores.record? outcome.record.id = some old) ∧
        c.savedMessage.key = (outcome.record.id, outcome.message.type) := by
  obtain ⟨c₁, j₁, hplan, hmessage, hreaches, hstep⟩ := run_planned single
  obtain ⟨updated, hrecord⟩ := hreaches.eq
  have hsubject := (plan_subject hplan).trans (config ▸ plan_subject h).symm
  cases hfound : w.stores.record? outcome.record.id with
  | none =>
    rw [hstep.opening fresh hfound] at hsubject
    exact .inl ⟨Option.map_eq_none_iff.1 hsubject.symm, rfl⟩
  | some old =>
    obtain ⟨next, hnext⟩ := hstep.moving fresh hfound
    rw [hnext] at hsubject
    obtain ⟨_, -, hid⟩ := Option.map_eq_some_iff.1 hsubject.symm
    have htype : c.message.type = c₁.message.type := plan_type hplan h
    refine .inr ⟨⟨old, rfl⟩, ?_⟩
    rw [hrecord, hmessage, ← htype]
    exact congrArg (·, c.message.type) hid

-- What was kept of the ledger's answers in the attempt is what the ledger answers.
theorem run_backed (version : Version) (operation : Operation)
    {failing : Nat → (call : Call) → Except String call.Answer} (functional : env.Functional)
    (backed : env.Backs w.journal.cache)
    (ledger : ∀ n artifact id value, failing n (.ledger artifact id) = .ok value →
      env.answer n (.ledger artifact id) = .ok value) :
    env.Backs (operation.run version { env with answer := failing } w).2.journal.cache := by
  intro entry hentry n
  have hgrows := operation.run_grows version { env with answer := failing } w
  rcases hgrows.caches entry hentry with hkept | ⟨n', hanswer⟩
  · exact backed entry hkept n
  · rw [functional n n']
    exact ledger n' _ _ _ hanswer

-- The first attempt may fail for any reason, and what it has been told before may not be what the
-- working collaborators say, save for the answers of the ledger, which are kept.
theorem run_retried {failing : Nat → (call : Call) → Except String call.Answer}
    (works : env.Works) (names : Function.Injective env.exchangeName) (settled : w.Settled env)
    (ledger : ∀ n artifact id value, failing n (.ledger artifact id) = .ok value →
      env.answer n (.ledger artifact id) = .ok value)
    (attempt : operation.run version { env with answer := failing } w = (.error x, failed))
    (single : operation.run version env w = (.ok outcome, after)) :
    ∃ again after', operation.run version env failed = (.ok again, after') ∧
      outcome.RepeatedBy env w failed operation.party again ∧
      let previous := (w.stores.record? outcome.record.id).map Exchange.state
      after.stores = outcome.written operation.party previous w.stores ∧
      (after'.stores = again.written operation.party previous w.stores ∨
        ∃ stray, after'.stores.record? stray.exchange = none ∧
          after'.stores = again.written operation.party previous (w.stores.putMessage stray)) := by
  have fresh := settled.unclaimed _ (Nat.le_refl _)
  have hbacked : env.Backs failed.journal.cache := by
    have h := operation.run_backed version works.functional settled.backed ledger
    rw [attempt] at h
    exact h
  obtain ⟨key, hfills, hbesides, hleft⟩ := run_error_stores attempt
  obtain ⟨again, after', hrun, hrepeated, hstores, hstores'⟩ :=
    run_again works fresh settled.backed hbacked hbesides hfills single
  refine ⟨again, after', hrun, hrepeated, hstores, ?_⟩
  rcases hleft with hsame | ⟨c, journal, hplan, hsaved, hexchanges⟩
  · rw [hsame] at hstores'
    exact .inl hstores'
  rw [hsaved] at hstores'
  have hconfig : Environment.config { env with answer := failing } = env.config := rfl
  rcases plan_place hconfig fresh single hplan with ⟨hopening, hnone⟩ | ⟨⟨old, hold⟩, hplace⟩
  · -- Both attempts open a record, and each one under a name of its own.
    right
    refine ⟨c.savedMessage, ?_, hstores'⟩
    have hopens := (plan_ok hplan).opens hopening
    have hid : c.record.id = env.exchangeName w.journal.exchanges := hopens.id
    have hdrawn : journal.exchanges = w.journal.exchanges + 1 := hopens.drawn
    show after'.stores.record? c.record.id = none
    rw [hstores', Outcome.record?_written, hid, if_neg]
    · exact fresh
    · rw [(hrepeated.opened hnone).2.2.1]
      intro hsame
      have hcount := names hsame
      omega
  · left
    rw [hstores']
    apply Outcome.written_putMessage
    obtain ⟨now, now', -, hmoved⟩ := hrepeated.moved old hold
    rw [hplace, hmoved, hrepeated.message.type]

-- The exchange store is down when the first proposal is to be kept. It is made again, under names
-- of its own.
theorem run_retried_proposed :
    let failing : Nat → (call : Call) → Except String call.Answer := fun n call =>
      match call with
      | .put _ => .error "down"
      | other => (Environment.steady 'a').answer n other
    let propose : Operation := .propose "connection" .blank none
    ∃ failed again after',
      propose.run .v1 { Environment.steady 'a' with answer := failing } World.empty =
        (.error (.external "down"), failed) ∧
      propose.run .v1 (.steady 'a') failed = (.ok again, after') ∧
      again.record.id = "ee" ∧ again.record.threadId = "aa" := by
  intro failing propose
  have attempt : propose.run .v1 { Environment.steady 'a' with answer := failing } World.empty =
      (.error (.external "down"), _) := rfl
  have single : propose.run .v1 (.steady 'a') World.empty = (.ok _, _) := rfl
  have ledger : ∀ n artifact id value, failing n (.ledger artifact id) = .ok value →
      (Environment.steady 'a').answer n (.ledger artifact id) = .ok value := fun _ _ _ _ h => h
  obtain ⟨again, after', hrun, hrepeated, -⟩ := run_retried (Environment.steady_works 'a')
    (Environment.steady_fresh 'a') (World.Settled.empty _) ledger attempt single
  obtain ⟨-, -, hid, hthread⟩ := hrepeated.opened rfl
  exact ⟨_, again, after', attempt, hrun, hid, (hthread rfl).2⟩

end Operation

end CredentialIssuance
