import CredentialIssuance.Proofs.Inquiry

namespace CredentialIssuance

def Error.isExternal : Error → Bool
  | .external _ => true
  | _ => false

theorem Error.isFault_of_isExternal {x : Error} (h : x.isExternal = true) : x.isFault = false := by
  cases x <;> first | rfl | cases h

-- The stores show what they hold: a look-up of a record finds it unless the look-up itself fails.
def Environment.Shows (env : Environment) : Prop :=
  ∀ n id, env.answer n (.get id) ≠ .ok false

-- A collaborator has failed and brought the error about.
def Environment.Causes (env : Environment) (x : Error) : Prop :=
  ∃ n call text, env.answer n call = .error text ∧ x = .external text

theorem Environment.Causes.isExternal {env : Environment} {x : Error} (h : env.Causes x) :
    x.isExternal = true := by
  obtain ⟨_, _, text, -, rfl⟩ := h
  rfl

-- The record in the state it is to be in, which for a new record is the one it has.
def Exchange.Reaches (e : Exchange) (next : Option State) (e' : Exchange) : Prop :=
  match next with
  | none => e' = e
  | some state => ∃ now, e.advance state now = .ok e'

theorem Exchange.advance_ok {e e' : Exchange} {next : State} {now : Timestamp}
    (h : e.advance next now = .ok e') :
    e.state.isTerminal = false ∧ e.state.rank < next.rank ∧
      e' = { e with state := next, updatedAt := some now } := by
  unfold advance at h
  split at h
  · cases h
  · next hopen =>
    cases h
    rw [not_or, Bool.not_eq_true, Nat.not_le] at hopen
    exact ⟨hopen.1, hopen.2, rfl⟩

theorem Exchange.advance_error {e : Exchange} {next : State} {now : Timestamp} {x : Error}
    (h : e.advance next now = .error x) :
    (e.state.isTerminal = true ∨ next.rank ≤ e.state.rank) ∧
      x = .invalidState e.id e.state (State.before next) := by
  unfold advance at h
  split at h
  · next hclosed =>
    cases h
    exact ⟨hclosed, rfl⟩
  · cases h

namespace Inquiry

variable {env : Environment} {stores : Stores} {journal after : Journal} {id : String} {x : Error}

theorem record_error (h : record id env stores journal = (.error x, after)) :
    after.puts env = journal.puts env ∧ after.threads = journal.threads ∧
      after.exchanges = journal.exchanges := by
  have hafter : journal.asked (.get id) = after := by
    rw [record_apply] at h
    exact congrArg Prod.snd h
  subst hafter
  exact ⟨by simp [Journal.puts_asked, Journal.storedBy], rfl, rfl⟩

-- A record that is not found is not stored, if the stores show what they hold.
theorem record_error_cases (h : record id env stores journal = (.error x, after)) :
    env.Causes x ∨ x = .notFound (.exchange id) ∧ (env.Shows → stores.record? id = none) := by
  rw [record_apply] at h
  cases hanswer : env.answer journal.calls.length (.get id) with
  | error text =>
    simp only [hanswer] at h
    cases h
    exact .inl ⟨_, _, text, hanswer, rfl⟩
  | ok shown =>
    right
    cases shown with
    | false =>
      simp only [hanswer] at h
      cases h
      exact ⟨rfl, fun shows => absurd hanswer (shows _ id)⟩
    | true =>
      simp only [hanswer, if_true] at h
      cases hfound : stores.record? id with
      | none =>
        simp only [hfound] at h
        cases h
        exact ⟨rfl, fun _ => rfl⟩
      | some e => simp [hfound] at h

end Inquiry

namespace Action

variable {α β : Type} {env : Environment} {world after : World}

-- An action that begins by inquiring.
theorem lift_bind_apply (x : Inquiry α) (f : α → Action β) :
    ((liftM x : Action α) >>= f) env world =
      match x env world.stores world.journal with
      | (.ok a, journal) => f a env ⟨world.stores, journal⟩
      | (.error e, journal) => (.error e, ⟨world.stores, journal⟩) := by
  show Action.bind (ofInquiry x) f env world = _
  simp only [Action.bind, ofInquiry]
  rcases x env world.stores world.journal with ⟨_ | a, journal⟩ <;> rfl

theorem bind_pure_snd (x : Action α) (f : α → β) (env : Environment) (world : World) :
    ((x >>= fun a => pure (f a)) env world).2 = (x env world).2 := by
  rw [bind_apply]
  rcases x env world with ⟨_ | a, after⟩ <;> rfl

theorem lift_ok {x : Except Error α} {a : α}
    (h : (liftM x : Action α) env world = (.ok a, after)) : x = .ok a ∧ world = after := by
  cases h
  exact ⟨rfl, rfl⟩

theorem lift_error {x : Except Error α} {e : Error}
    (h : (liftM x : Action α) env world = (.error e, after)) : x = .error e ∧ world = after := by
  cases h
  exact ⟨rfl, rfl⟩

theorem saveMessage_apply (exchange : String) (party : Party) (m : Message) :
    saveMessage exchange party m env world =
      match env.answer world.journal.calls.length (.saveMessage exchange party m) with
      | .ok _ => (.ok (), ⟨world.stores.putMessage ⟨exchange, m.type, some party, m.toJson⟩,
          world.journal.asked (.saveMessage exchange party m)⟩)
      | .error text => (.error (.external text),
          ⟨world.stores, world.journal.asked (.saveMessage exchange party m)⟩) := by
  unfold saveMessage
  rw [lift_bind_apply]
  simp only [Inquiry.call, Journal.asked]
  cases env.answer world.journal.calls.length (.saveMessage exchange party m) <;> rfl

theorem saveMessage_ok {exchange : String} {party : Party} {m : Message}
    (h : saveMessage exchange party m env world = (.ok (), after)) :
    after.stores = world.stores.putMessage ⟨exchange, m.type, some party, m.toJson⟩ ∧
      after.journal = world.journal.asked (.saveMessage exchange party m) := by
  rw [saveMessage_apply] at h
  split at h
  · cases h; exact ⟨rfl, rfl⟩
  · cases h

theorem saveMessage_error {exchange : String} {party : Party} {m : Message} {x : Error}
    (h : saveMessage exchange party m env world = (.error x, after)) :
    env.Causes x ∧ after.stores = world.stores ∧
      after.journal = world.journal.asked (.saveMessage exchange party m) := by
  rw [saveMessage_apply] at h
  split at h
  · cases h
  · next hanswer => cases h; exact ⟨⟨_, _, _, hanswer, rfl⟩, rfl, rfl⟩

theorem put_apply (e : Exchange) :
    put e env world =
      match env.answer world.journal.calls.length (.put e) with
      | .ok _ => (.ok (), ⟨world.stores.put e, world.journal.asked (.put e)⟩)
      | .error text => (.error (.external text), ⟨world.stores, world.journal.asked (.put e)⟩) := by
  unfold put
  rw [lift_bind_apply]
  simp only [Inquiry.call, Journal.asked]
  cases env.answer world.journal.calls.length (.put e) <;> rfl

theorem put_ok {e : Exchange} (h : put e env world = (.ok (), after)) :
    after.stores = world.stores.put e ∧ after.journal = world.journal.asked (.put e) ∧
      after.journal.puts env = world.journal.puts env ++ [e] := by
  rw [put_apply] at h
  split at h
  · next hanswer =>
    cases h
    exact ⟨rfl, rfl, by simp [Journal.puts_asked, Journal.storedBy, hanswer]⟩
  · cases h

theorem put_error {e : Exchange} {x : Error} (h : put e env world = (.error x, after)) :
    env.Causes x ∧ after.stores = world.stores ∧
      after.journal = world.journal.asked (.put e) ∧
      after.journal.puts env = world.journal.puts env := by
  rw [put_apply] at h
  split at h
  · cases h
  · next hanswer =>
    cases h
    exact ⟨⟨_, _, _, hanswer, rfl⟩, rfl, rfl,
      by simp [Journal.puts_asked, Journal.storedBy, hanswer]⟩

-- A record is replaced by looking the old one up and putting the new one.
theorem replace_ok {e : Exchange} (h : replace e env world = (.ok (), after)) :
    put e env ⟨world.stores, world.journal.asked (.get e.id)⟩ = (.ok (), after) := by
  unfold replace at h
  rw [lift_bind_apply] at h
  split at h
  · next hrecord =>
    obtain ⟨-, -, rfl⟩ := Inquiry.record_eq_ok_iff.1 hrecord
    exact h
  · cases h

theorem replace_error {e : Exchange} {x : Error} (h : replace e env world = (.error x, after)) :
    after.stores = world.stores ∧ after.journal.puts env = world.journal.puts env ∧
      after.journal.threads = world.journal.threads ∧
      after.journal.exchanges = world.journal.exchanges := by
  unfold replace at h
  rw [lift_bind_apply] at h
  split at h
  · next hrecord =>
    obtain ⟨-, -, rfl⟩ := Inquiry.record_eq_ok_iff.1 hrecord
    obtain ⟨-, hstores, hjournal, hputs⟩ := put_error h
    refine ⟨hstores, ?_, by rw [hjournal]; rfl, by rw [hjournal]; rfl⟩
    rw [hputs, Journal.puts_asked]
    simp [Journal.storedBy]
  · next hrecord =>
    cases h
    obtain ⟨hputs, hthreads, hexchanges⟩ := Inquiry.record_error hrecord
    exact ⟨rfl, hputs, hthreads, hexchanges⟩

theorem replace_error_cases {e : Exchange} {x : Error}
    (h : replace e env world = (.error x, after)) :
    env.Causes x ∨
      x = .notFound (.exchange e.id) ∧ (env.Shows → world.stores.record? e.id = none) := by
  unfold replace at h
  rw [lift_bind_apply] at h
  split at h
  · exact .inl (put_error h).1
  · next hrecord =>
    cases h
    exact Inquiry.record_error_cases hrecord

-- What is announced once it is stored.
theorem announce_ok {e e' : Exchange} {event : Event}
    (h : (publish event >>= fun _ => pure e) env world = (.ok e', after)) :
    e' = e ∧ after.stores = world.stores.publish event ∧
      after.journal = world.journal.asked (.publish event) := by
  cases h
  exact ⟨rfl, rfl, rfl⟩

theorem announce_ne_error {e : Exchange} {event : Event} {x : Error} :
    (publish event >>= fun _ => pure e) env world ≠ (.error x, after) := by
  intro h
  cases h

end Action

namespace Change

-- The state before a change, which a new record does not have.
def previous (c : Change) : Option State := c.next.map fun _ => c.record.state

def target (c : Change) : State := c.next.getD c.record.state

def savedMessage (c : Change) : StoredMessage :=
  ⟨c.record.id, c.message.type, some c.party, c.message.toJson⟩

-- One message, one record and one event have been written, in this order, and nothing else.
structure Committed (env : Environment) (c : Change) (before after : World) (e : Exchange) :
    Prop where
  record : c.record.Reaches c.next e
  stores : after.stores = ((before.stores.putMessage c.savedMessage).put e).publish ⟨e, c.previous⟩
  effects : after.journal.effects = before.journal.effects ++
    [.saveMessage e.id c.party c.message, .put e, .publish ⟨e, c.previous⟩]
  puts : after.journal.puts env = before.journal.puts env ++ [e]
  threads : after.journal.threads = before.journal.threads
  exchanges : after.journal.exchanges = before.journal.exchanges

-- No record and no event have been written, though the message may have been saved.
structure Abandoned (env : Environment) (c : Change) (before after : World) : Prop where
  records : after.stores.records = before.stores.records
  events : after.stores.events = before.stores.events
  messages : after.stores.messages = before.stores.messages ∨
    after.stores.messages = before.stores.messages.put c.savedMessage
  puts : after.journal.puts env = before.journal.puts env
  threads : after.journal.threads = before.journal.threads
  exchanges : after.journal.exchanges = before.journal.exchanges

theorem Abandoned.later {env : Environment} {c : Change} {before between after : World}
    (h : c.Abandoned env before between) (hstores : after.stores = between.stores)
    (hputs : after.journal.puts env = between.journal.puts env)
    (hthreads : after.journal.threads = between.journal.threads)
    (hexchanges : after.journal.exchanges = between.journal.exchanges) :
    c.Abandoned env before after :=
  ⟨by rw [hstores, h.records], by rw [hstores, h.events], by rw [hstores]; exact h.messages,
    hputs.trans h.puts, hthreads.trans h.threads, hexchanges.trans h.exchanges⟩

section Commit

variable {env : Environment} {c : Change} {before after : World} {e : Exchange} {x : Error}

theorem commit_ok (h : c.commit env before = (.ok e, after)) : c.Committed env before after e := by
  unfold commit at h
  obtain ⟨_, saved, hsave, h⟩ := Action.bind_eq_ok_iff.1 h
  obtain ⟨hstores, hjournal⟩ := Action.saveMessage_ok hsave
  have hsaved : saved.journal.puts env = before.journal.puts env := by
    simp [hjournal, Journal.puts_asked, Journal.storedBy]
  cases hnext : c.next with
  | none =>
    simp only [hnext] at h
    obtain ⟨_, kept, hput, h⟩ := Action.bind_eq_ok_iff.1 h
    obtain ⟨hkept, hasked, hputs⟩ := Action.put_ok hput
    obtain ⟨rfl, hdone, hpublished⟩ := Action.announce_ok h
    have hprevious : c.previous = none := by simp [previous, hnext]
    refine ⟨by rw [hnext]; rfl, ?_, ?_, ?_, ?_, ?_⟩
    · rw [hdone, hkept, hstores, hprevious]; rfl
    · simp [hpublished, hasked, hjournal, hprevious, Journal.effects_asked, Call.isEffect,
        Event.created]
    · simp [hpublished, Journal.puts_asked, Journal.storedBy, hputs, hsaved]
    · rw [hpublished, hasked, hjournal]; rfl
    · rw [hpublished, hasked, hjournal]; rfl
  | some next =>
    simp only [hnext] at h
    obtain ⟨now, _, hnow, h⟩ := Action.bind_eq_ok_iff.1 h
    cases hnow
    obtain ⟨record, _, hlift, h⟩ := Action.bind_eq_ok_iff.1 h
    obtain ⟨hadvance, rfl⟩ := Action.lift_ok hlift
    obtain ⟨_, kept, hreplace, h⟩ := Action.bind_eq_ok_iff.1 h
    obtain ⟨hkept, hasked, hputs⟩ := Action.put_ok (Action.replace_ok hreplace)
    obtain ⟨rfl, hdone, hpublished⟩ := Action.announce_ok h
    have hprevious : c.previous = some c.record.state := by simp [previous, hnext]
    have hid : e.id = c.record.id := by rw [(Exchange.advance_ok hadvance).2.2]
    refine ⟨by rw [hnext]; exact ⟨_, hadvance⟩, ?_, ?_, ?_, ?_, ?_⟩
    · rw [hdone, hkept, hstores, hprevious]; rfl
    · simp [hpublished, hasked, hjournal, hprevious, hid, Journal.effects_asked, Call.isEffect,
        Event.transitioned]
    · simp [hpublished, Journal.puts_asked, Journal.storedBy, hputs, hsaved]
    · rw [hpublished, hasked, hjournal]; rfl
    · rw [hpublished, hasked, hjournal]; rfl

-- The record or event of a change is the last thing written, so a commit that fails has written
-- neither.
theorem commit_error (h : c.commit env before = (.error x, after)) : c.Abandoned env before after := by
  unfold commit at h
  rcases Action.bind_eq_error_iff.1 h with hsave | ⟨_, saved, hsave, h⟩
  · obtain ⟨-, hstores, hjournal⟩ := Action.saveMessage_error hsave
    refine ⟨by rw [hstores], by rw [hstores], .inl (by rw [hstores]), ?_, ?_, ?_⟩
    · simp [hjournal, Journal.puts_asked, Journal.storedBy]
    · rw [hjournal]; rfl
    · rw [hjournal]; rfl
  obtain ⟨hstores, hjournal⟩ := Action.saveMessage_ok hsave
  have hsaved : c.Abandoned env before saved := by
    refine ⟨by rw [hstores]; rfl, by rw [hstores]; rfl, .inr (by rw [hstores]; rfl), ?_, ?_, ?_⟩
    · simp [hjournal, Journal.puts_asked, Journal.storedBy]
    · rw [hjournal]; rfl
    · rw [hjournal]; rfl
  cases hnext : c.next with
  | none =>
    simp only [hnext] at h
    rcases Action.bind_eq_error_iff.1 h with hput | ⟨_, _, _, h⟩
    · obtain ⟨-, hkept, hasked, hputs⟩ := Action.put_error hput
      exact hsaved.later hkept hputs (by rw [hasked]; rfl) (by rw [hasked]; rfl)
    · exact absurd h Action.announce_ne_error
  | some next =>
    simp only [hnext] at h
    rcases Action.bind_eq_error_iff.1 h with hnow | ⟨now, _, hnow, h⟩
    · cases hnow
    cases hnow
    rcases Action.bind_eq_error_iff.1 h with hlift | ⟨record, _, hlift, h⟩
    · obtain ⟨-, rfl⟩ := Action.lift_error hlift
      exact hsaved
    obtain ⟨-, rfl⟩ := Action.lift_ok hlift
    rcases Action.bind_eq_error_iff.1 h with hreplace | ⟨_, _, _, h⟩
    · obtain ⟨hkept, hputs, hthreads, hexchanges⟩ := Action.replace_error hreplace
      exact hsaved.later hkept hputs hthreads hexchanges
    · exact absurd h Action.announce_ne_error

-- What stops a commit: a collaborator, or a record that cannot be moved on or is not there.
theorem commit_error_cases (h : c.commit env before = (.error x, after)) :
    env.Causes x ∨ ∃ next ∈ c.next,
      (c.record.state.isTerminal = true ∨ next.rank ≤ c.record.state.rank) ∧
          x = .invalidState c.record.id c.record.state (State.before next) ∨
        x = .notFound (.exchange c.record.id) ∧
          (env.Shows → before.stores.record? c.record.id = none) := by
  unfold commit at h
  rcases Action.bind_eq_error_iff.1 h with hsave | ⟨_, saved, hsave, h⟩
  · exact .inl (Action.saveMessage_error hsave).1
  obtain ⟨hstores, -⟩ := Action.saveMessage_ok hsave
  cases hnext : c.next with
  | none =>
    simp only [hnext] at h
    rcases Action.bind_eq_error_iff.1 h with hput | ⟨_, _, _, h⟩
    · exact .inl (Action.put_error hput).1
    · exact absurd h Action.announce_ne_error
  | some next =>
    simp only [hnext] at h
    rcases Action.bind_eq_error_iff.1 h with hnow | ⟨now, _, hnow, h⟩
    · cases hnow
    cases hnow
    rcases Action.bind_eq_error_iff.1 h with hlift | ⟨record, _, hlift, h⟩
    · exact .inr ⟨next, rfl, .inl (Exchange.advance_error (Action.lift_error hlift).1)⟩
    obtain ⟨hadvance, rfl⟩ := Action.lift_ok hlift
    rcases Action.bind_eq_error_iff.1 h with hreplace | ⟨_, _, _, h⟩
    · refine (Action.replace_error_cases hreplace).imp id fun hmissing => ⟨next, rfl, .inr ?_⟩
      rw [(Exchange.advance_ok hadvance).2.2, hstores] at hmissing
      exact hmissing
    · exact absurd h Action.announce_ne_error

-- Faults are found while an operation is planned, and none when it is carried out.
theorem commit_error_isFault (h : c.commit env before = (.error x, after)) : x.isFault = false := by
  rcases commit_error_cases h with hcaused | ⟨_, -, ⟨-, rfl⟩ | ⟨rfl, -⟩⟩
  · exact Error.isFault_of_isExternal hcaused.isExternal
  · rfl
  · rfl

-- A change that moves a record on from the state it has in the stores is stopped by nothing but a
-- collaborator.
theorem commit_error_caused (shows : env.Shows)
    (hmoves : ∀ next ∈ c.next, c.record.state.isTerminal = false ∧ c.record.state.rank < next.rank ∧
      ∃ old, before.stores.record? c.record.id = some old)
    (h : c.commit env before = (.error x, after)) : env.Causes x := by
  rcases commit_error_cases h with hcaused | ⟨next, hnext, hstopped⟩
  · exact hcaused
  · obtain ⟨hopen, hrank, old, hold⟩ := hmoves next hnext
    rcases hstopped with ⟨hclosed | hlow, -⟩ | ⟨-, hmissing⟩
    · cases hopen.symm.trans hclosed
    · omega
    · cases (hmissing shows).symm.trans hold

end Commit

end Change

end CredentialIssuance
