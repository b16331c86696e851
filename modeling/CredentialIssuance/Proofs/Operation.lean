import CredentialIssuance.Proofs.Plan

namespace CredentialIssuance

-- What an operation that succeeds has done to the world. `previous` is the state in which the
-- record was stored before, which a new record has none of.
structure Step (env : Environment) (before after : World) (version : Version)
    (operation : Operation) (outcome : Outcome) (previous : Option State) : Prop where
  version : outcome.record.version = version
  carries : operation.Carries outcome.message
  thread : outcome.message.threadId = outcome.record.threadId
  transition : Transition outcome.record.role operation.party operation.kind previous
    outcome.record.state
  opens : previous = none →
    Opens env before.stores before.journal after.journal operation outcome.record
  moves : ∀ state ∈ previous, ∃ old, before.stores.record? outcome.record.id = some old ∧
    old.SameOrigin outcome.record ∧ old.state = state ∧
    (outcome.record.role = .holder → old.connectionId = outcome.record.connectionId)
  stores : after.stores =
    ((before.stores.putMessage ⟨outcome.record.id, outcome.message.type, some operation.party,
      outcome.message.toJson⟩).put outcome.record).publish ⟨outcome.record, previous⟩
  effects : after.journal.effects = before.journal.effects ++
    [.saveMessage outcome.record.id operation.party outcome.message, .put outcome.record,
      .publish ⟨outcome.record, previous⟩]
  puts : after.journal.puts env = before.journal.puts env ++ [outcome.record]
  threads : before.journal.threads ≤ after.journal.threads
  exchanges : before.journal.exchanges ≤ after.journal.exchanges

-- What an operation that fails has done to the world.
structure Unwritten (env : Environment) (before after : World) : Prop where
  records : after.stores.records = before.stores.records
  events : after.stores.events = before.stores.events
  puts : after.journal.puts env = before.journal.puts env
  threads : before.journal.threads ≤ after.journal.threads
  exchanges : before.journal.exchanges ≤ after.journal.exchanges

theorem Stores.record?_eq_some_iff {s : Stores} {id : String} {e : Exchange} :
    s.record? id = some e ↔ e ∈ s.records.entries ∧ e.id = id :=
  s.records.get?_eq_some_iff id e

theorem Stores.mem_onThread_iff {s : Stores} {thread : String} {e : Exchange} :
    e ∈ s.onThread thread ↔ s.record? e.id = some e ∧ e.threadId = thread := by
  rw [Stores.mem_onThread, Stores.record?_eq_some_iff, and_iff_left rfl]

-- A record as it is stored differs from the record that was planned only in its state and in the
-- time of its last change.
theorem Exchange.Reaches.eq {e e' : Exchange} {next : Option State} (h : e.Reaches next e') :
    ∃ updated, e' = { e with state := next.getD e.state, updatedAt := updated } := by
  cases next with
  | none => exact ⟨e.updatedAt, h⟩
  | some state =>
    obtain ⟨now, hadvance⟩ := h
    exact ⟨some now, (Exchange.advance_ok hadvance).2.2⟩

section Written

variable {env : Environment} {before after : World} {version : Version} {operation : Operation}
  {outcome : Outcome} {previous : Option State}

theorem Step.records (h : Step env before after version operation outcome previous) :
    after.stores.records = before.stores.records.put outcome.record := by
  rw [h.stores]
  rfl

theorem Step.messages (h : Step env before after version operation outcome previous) :
    after.stores.messages = before.stores.messages.put
      ⟨outcome.record.id, outcome.message.type, some operation.party, outcome.message.toJson⟩ := by
  rw [h.stores]
  rfl

theorem Step.record? (h : Step env before after version operation outcome previous) (id : String) :
    after.stores.record? id =
      if outcome.record.id = id then some outcome.record else before.stores.record? id := by
  rw [Stores.record?, h.records, Table.get?_put]
  rfl

theorem Unwritten.record? (h : Unwritten env before after) (id : String) :
    after.stores.record? id = before.stores.record? id := by
  rw [Stores.record?, h.records]
  rfl

-- The state of the record that an operation writes, as it was stored before.
theorem Step.previous_eq (h : Step env before after version operation outcome previous)
    (fresh : before.stores.record? (env.exchangeName before.journal.exchanges) = none) :
    (before.stores.record? outcome.record.id).map Exchange.state = previous := by
  cases previous with
  | none =>
    have hid := (h.opens rfl).id
    rw [hid, fresh]
    rfl
  | some state =>
    obtain ⟨old, hold, -, hstate, -⟩ := h.moves state rfl
    rw [hold, Option.map_some, hstate]

end Written

namespace Operation

variable {env : Environment} {before after : World} {version : Version} {operation : Operation}
  {outcome : Outcome} {x : Error}

theorem plan_extends {result : Except Error Change} {journal : Journal}
    (h : operation.plan version env before.stores before.journal = (result, journal)) :
    before.journal.Extends env journal := by
  have hreads := operation.plan_reads version env before.stores before.journal
  rw [h] at hreads
  exact hreads

-- A run is planned on the journal and carried out on the stores.
theorem run_eq_ok (h : operation.run version env before = (.ok outcome, after)) :
    ∃ c journal, operation.plan version env before.stores before.journal = (.ok c, journal) ∧
      c.commit env ⟨before.stores, journal⟩ = (.ok outcome.record, after) ∧
      outcome.message = c.message := by
  unfold run at h
  rw [Action.lift_bind_apply] at h
  split at h
  · next c journal hplan =>
    obtain ⟨record, _, hcommit, h⟩ := Action.bind_eq_ok_iff.1 h
    cases h
    exact ⟨c, journal, hplan, hcommit, rfl⟩
  · cases h

theorem run_eq_error (h : operation.run version env before = (.error x, after)) :
    (∃ journal, operation.plan version env before.stores before.journal = (.error x, journal) ∧
        after = ⟨before.stores, journal⟩) ∨
      ∃ c journal, operation.plan version env before.stores before.journal = (.ok c, journal) ∧
        c.commit env ⟨before.stores, journal⟩ = (.error x, after) := by
  unfold run at h
  rw [Action.lift_bind_apply] at h
  split at h
  · next c journal hplan =>
    right
    rcases Action.bind_eq_error_iff.1 h with hcommit | ⟨_, _, _, h⟩
    · exact ⟨c, journal, hplan, hcommit⟩
    · cases h
  · next journal hplan =>
    cases h
    exact .inl ⟨journal, hplan, rfl⟩

-- The step that a run makes is the one that was planned.
theorem run_planned (h : operation.run version env before = (.ok outcome, after)) :
    ∃ c journal, operation.plan version env before.stores before.journal = (.ok c, journal) ∧
      outcome.message = c.message ∧ c.record.Reaches c.next outcome.record ∧
      Step env before after version operation outcome c.previous := by
  obtain ⟨c, journal, hplan, hcommit, hmessage⟩ := run_eq_ok h
  have hextends := plan_extends hplan
  have hplanned := plan_ok hplan
  have hcommitted := Change.commit_ok hcommit
  obtain ⟨updated, hrecord⟩ := hcommitted.record.eq
  have hjournal : after.journal.exchanges = journal.exchanges := hcommitted.exchanges
  refine ⟨c, journal, hplan, hmessage, hcommitted.record, ?_⟩
  constructor
  case version => rw [hrecord]; exact hplanned.version
  case carries => rw [hmessage]; exact hplanned.carries
  case thread => rw [hmessage, hrecord]; exact hplanned.thread
  case transition => rw [hrecord]; exact hplanned.transition
  case opens =>
    intro hnone
    have hopens := hplanned.opens (Option.map_eq_none_iff.1 hnone)
    rw [hrecord]
    exact { hopens with
      drawn := hjournal.trans hopens.drawn
      started := fun hparty =>
        ⟨(hopens.started hparty).1, hcommitted.threads.trans (hopens.started hparty).2⟩ }
  case moves =>
    intro state hstate
    obtain ⟨next, hnext, rfl⟩ := Option.map_eq_some_iff.1 hstate
    obtain ⟨old, hold, horigin, hsame, hconnection⟩ := (hplanned.moves next hnext).stored
    rw [hrecord]
    exact ⟨old, hold, horigin.trans (.edit ..), hsame, hconnection⟩
  case stores =>
    rw [hcommitted.stores, Change.savedMessage, hplanned.party, hmessage, hrecord]
  case effects =>
    rw [hcommitted.effects, hplanned.party, hmessage]
    exact congrArg (· ++ _) hextends.effects
  case puts => exact hcommitted.puts.trans (congrArg (· ++ _) (hextends.puts))
  case threads => exact hcommitted.threads ▸ hextends.threads
  case exchanges => exact hjournal ▸ hextends.exchanges

theorem run_ok (h : operation.run version env before = (.ok outcome, after)) :
    ∃ previous, Step env before after version operation outcome previous := by
  obtain ⟨c, -, -, -, -, hstep⟩ := run_planned h
  exact ⟨c.previous, hstep⟩

theorem run_named {id : String} (named : operation.exchange? = some id)
    (h : operation.run version env before = (.ok outcome, after)) :
    outcome.record.id = id ∧
      ∃ state, Step env before after version operation outcome (some state) := by
  obtain ⟨c, journal, hplan, -, hreaches, hstep⟩ := run_planned h
  obtain ⟨hid, next, hnext⟩ := plan_named named hplan
  obtain ⟨updated, hrecord⟩ := hreaches.eq
  rw [Change.previous, hnext] at hstep
  refine ⟨?_, c.record.state, hstep⟩
  rw [hrecord]
  exact hid

theorem run_error (h : operation.run version env before = (.error x, after)) :
    Unwritten env before after := by
  rcases run_eq_error h with ⟨journal, hplan, rfl⟩ | ⟨c, journal, hplan, hcommit⟩
  · have hextends := plan_extends hplan
    exact ⟨rfl, rfl, hextends.puts, hextends.threads, hextends.exchanges⟩
  · have hextends := plan_extends hplan
    have habandoned := Change.commit_error hcommit
    exact ⟨habandoned.records, habandoned.events, habandoned.puts.trans (hextends.puts),
      habandoned.threads ▸ hextends.threads, habandoned.exchanges ▸ hextends.exchanges⟩

-- Whether it succeeds or fails, a run leaves alone what is stored elsewhere than its message.
theorem run_spares {key : String × String}
    (spared : ∀ c journal, operation.plan version env before.stores before.journal = (.ok c, journal) →
      c.savedMessage.key ≠ key) :
    (operation.run version env before).2.stores.messages.get? key =
      before.stores.messages.get? key := by
  have hput : ∀ {c journal} {messages : Table StoredMessage.key},
      operation.plan version env before.stores before.journal = (.ok c, journal) →
      messages = before.stores.messages.put c.savedMessage →
        messages.get? key = before.stores.messages.get? key := by
    intro c journal messages hplan hmessages
    rw [hmessages, Table.get?_put, if_neg (spared c journal hplan)]
  cases hrun : operation.run version env before with
  | mk result after =>
    show after.stores.messages.get? key = _
    cases result with
    | error x =>
      rcases run_eq_error hrun with ⟨journal, -, rfl⟩ | ⟨c, journal, hplan, hcommit⟩
      · rfl
      · rcases (Change.commit_error hcommit).messages with hsame | hsaved
        · rw [hsame]
        · exact hput hplan hsaved
    | ok outcome =>
      obtain ⟨c, journal, hplan, hcommit, -⟩ := run_eq_ok hrun
      have hstores := (Change.commit_ok hcommit).stores
      exact hput hplan (congrArg Stores.messages hstores)

end Operation

namespace Environment

-- An environment in which nothing fails and no name is drawn twice. The mark tells the threads of
-- one agent from those of another.
def steady (mark : Char) : Environment where
  config := {}
  answer := fun _ call =>
    match call with
    | .get _ => .ok true
    | .connection id => .ok ⟨id, "did", "their-did", .complete⟩
    | .ledger .. => .ok "artifact"
    | .definition id => .ok ⟨id, "schema", "proof"⟩
    | .revocation _ => .ok none
    | .createOffer .. => .ok "offer"
    | .createRequest .. => .ok ⟨"request", "metadata"⟩
    | .createCredential .. => .ok "credential"
    | .processCredential .. => .ok "credential-id"
    | .linkSecretId => .ok "secret"
    | .byThread _ | .put _ | .findMessage .. | .saveMessage .. | .send .. | .publish _ => .ok ()
  now := fun _ => ⟨1970, 1, 1, 0, 0, 0, 0, by decide, by decide⟩
  clock := id
  threadName n := String.ofList (List.replicate (n + 1) mark)
  exchangeName n := String.ofList (List.replicate (n + 1) 'e')
  messageName n := String.ofList (List.replicate (n + 1) 'm')

theorem steady_shows (mark : Char) : (steady mark).Shows := by
  intro n id h
  cases h

theorem steady_fresh (mark : Char) : Function.Injective (steady mark).exchangeName := by
  intro a b h
  simpa [steady] using congrArg String.length h

end Environment

-- A proposal that leaves everything open.
def Proposal.blank : Proposal := ⟨⟨none, none, none⟩, [], ⟨none, none, none, none, none, none⟩⟩

end CredentialIssuance
