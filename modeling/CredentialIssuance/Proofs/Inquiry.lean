import CredentialIssuance.Proofs.Journal
import CredentialIssuance.Proofs.Selection

namespace CredentialIssuance

-- The message of a kind that is stored for a record.
def Stores.Holds (s : Stores) (e : Exchange) (kind : Kind) (m : Message) : Prop :=
  ∃ value, s.message? e.id (typeUri e.version kind) = some value ∧ Message.ofJson value = .ok m

theorem Stores.mem_onThread {s : Stores} {thread : String} {e : Exchange} :
    e ∈ s.onThread thread ↔ e ∈ s.records.entries ∧ e.threadId = thread := by
  simp [Stores.onThread]

theorem Stores.onThread_nodup (s : Stores) (thread : String) : (s.onThread thread).Nodup :=
  (List.Nodup.of_map Exchange.id s.records.distinct).filter _

-- Whether the error is about a message or the circumstances in which it arrived.
def Error.isFault : Error → Bool
  | .invalidMessage _ => true
  | _ => false

section Guards

variable {e : Exchange} {x : Error}

theorem Exchange.assertVersion_ok {expected : Version} (h : e.assertVersion expected = .ok ()) :
    e.version = expected := by
  unfold assertVersion at h
  split at h
  · assumption
  · cases h

theorem Exchange.assertState_ok {expected : State} (h : e.assertState [expected] = .ok ()) :
    e.state = expected := by
  unfold assertState at h
  split at h
  · exact List.mem_singleton.1 ‹_›
  · cases h

theorem Exchange.assertRole_ok {expected : Role} (h : e.assertRole expected = .ok ()) :
    e.role = expected := by
  unfold assertRole at h
  split at h
  · assumption
  · cases h

theorem Exchange.assertOpen_ok (h : e.assertOpen = .ok ()) : e.state.isTerminal = false := by
  unfold assertOpen at h
  split at h
  · cases h
  · exact Bool.eq_false_iff.2 ‹_›

-- A guard that fails tells of the record, not of the message.

theorem Exchange.assertVersion_isFault {expected : Version}
    (h : e.assertVersion expected = .error x) : x.isFault = false := by
  unfold assertVersion at h
  split at h
  · cases h
  · cases h
    rfl

theorem Exchange.assertOpen_isFault (h : e.assertOpen = .error x) : x.isFault = false := by
  unfold assertOpen at h
  split at h
  · cases h
    rfl
  · cases h

end Guards

-- The connection a message arrived on, if it is complete.
theorem Inbound.ready_ok {inbound : Inbound} {c : Connection} (h : inbound.ready = .ok c) :
    inbound.connection = some c ∧ c.isReady = true := by
  unfold ready at h
  split at h
  · cases h
  · next c' hc =>
    split at h
    · cases h; exact ⟨hc, ‹_›⟩
    · cases h

namespace Inquiry

variable {α β : Type}

section Success

variable {env : Environment} {stores : Stores} {journal after : Journal}

theorem pure_eq_ok_iff {a b : α} :
    (pure a : Inquiry α) env stores journal = (.ok b, after) ↔ a = b ∧ journal = after := by
  simp [pure_apply]

theorem lift_eq_ok_iff {x : Except Error α} {a : α} :
    (liftM x : Inquiry α) env stores journal = (.ok a, after) ↔ x = .ok a ∧ journal = after := by
  show (x, journal) = (.ok a, after) ↔ _
  simp

theorem fail_ne_ok {e : Error} {a : α} :
    (fail e : Inquiry α) env stores journal ≠ (.ok a, after) := by
  simp [fail, ofExcept]

theorem require_eq_ok_iff {found : Option α} {what : Missing} {a : α} :
    require found what env stores journal = (.ok a, after) ↔ found = some a ∧ journal = after := by
  cases found with
  | none => simp [require, fail, ofExcept]
  | some b => simp [require, pure_apply]

theorem ask_eq_ok_iff {c : Call} {a : c.Answer} :
    call c env stores journal = (.ok a, after) ↔
      env.answer journal.calls.length c = .ok a ∧ journal.asked c = after :=
  call_eq_ok_iff.trans (and_congr_right fun _ => eq_comm)

-- The steps of an inquiry that succeeded, by what begins it.

theorem lift_bind_ok {x : Except Error α} {f : α → Inquiry β} {b : β}
    (h : ((liftM x : Inquiry α) >>= f) env stores journal = (.ok b, after)) :
    ∃ a, x = .ok a ∧ f a env stores journal = (.ok b, after) := by
  obtain ⟨a, _, hlift, h⟩ := bind_eq_ok_iff.1 h
  obtain ⟨hx, rfl⟩ := lift_eq_ok_iff.1 hlift
  exact ⟨a, hx, h⟩

theorem require_bind_ok {found : Option α} {what : Missing} {f : α → Inquiry β} {b : β}
    (h : (require found what >>= f) env stores journal = (.ok b, after)) :
    ∃ a, found = some a ∧ f a env stores journal = (.ok b, after) := by
  obtain ⟨a, _, hrequire, h⟩ := bind_eq_ok_iff.1 h
  obtain ⟨hfound, rfl⟩ := require_eq_ok_iff.1 hrequire
  exact ⟨a, hfound, h⟩

theorem ask_bind_ok {c : Call} {f : c.Answer → Inquiry β} {b : β}
    (h : (call c >>= f) env stores journal = (.ok b, after)) :
    ∃ a, env.answer journal.calls.length c = .ok a ∧
      f a env stores (journal.asked c) = (.ok b, after) := by
  obtain ⟨a, _, hcall, h⟩ := bind_eq_ok_iff.1 h
  obtain ⟨hanswer, rfl⟩ := ask_eq_ok_iff.1 hcall
  exact ⟨a, hanswer, h⟩

theorem newThread_eq_ok_iff {thread : String} :
    newThread env stores journal = (.ok thread, after) ↔
      env.threadName journal.threads = thread ∧
        { journal with threads := journal.threads + 1 } = after := by
  simp [newThread]

theorem newRecord_eq_ok_iff {role : Role} {version : Version} {state : State}
    {thread connection : String} {e : Exchange} :
    newRecord role version state thread connection env stores journal = (.ok e, after) ↔
      .new (env.exchangeName journal.exchanges) role version state thread connection
          (env.now journal.calls.length) = e ∧
        { journal with exchanges := journal.exchanges + 1 } = after := by
  show ((.ok (.new _ role version state thread connection _), _) : Except Error Exchange × Journal)
    = (.ok e, after) ↔ _
  simp

theorem reply_eq_ok_iff {thread : String} {header : Header} :
    reply thread env stores journal = (.ok header, after) ↔
      .reply (env.messageName journal.messages) thread = header ∧
        { journal with messages := journal.messages + 1 } = after := by
  show ((.ok (.reply _ thread), _) : Except Error Header × Journal) = (.ok header, after) ↔ _
  simp

theorem record_apply (id : String) :
    record id env stores journal =
      ((match env.answer journal.calls.length (.get id) with
        | .error text => .error (.external text)
        | .ok shown =>
          match if shown then stores.record? id else none with
          | some e => .ok e
          | none => .error (.notFound (.exchange id))), journal.asked (.get id)) := by
  simp only [record, find?, bind_apply, call, Inquiry.stores, pure_apply, Journal.asked]
  cases env.answer journal.calls.length (.get id) with
  | error text => rfl
  | ok shown =>
    simp only [require]
    cases (if shown then stores.record? id else none) <;> rfl

theorem record_eq_ok_iff {id : String} {e : Exchange} :
    record id env stores journal = (.ok e, after) ↔
      env.answer journal.calls.length (.get id) = .ok true ∧ stores.record? id = some e ∧
        journal.asked (.get id) = after := by
  rw [record_apply]
  cases env.answer journal.calls.length (.get id) with
  | error text => simp
  | ok shown =>
    cases shown with
    | false => simp
    | true => cases stores.record? id <;> simp

theorem onThread_apply (thread : String) (role : Option Role) (connection : Option String) :
    onThread thread role connection env stores journal =
      match env.answer journal.calls.length (.byThread thread) with
      | .ok _ => (select thread role connection (stores.onThread thread),
          journal.asked (.byThread thread))
      | .error text => (.error (.external text), journal.asked (.byThread thread)) := by
  simp only [onThread, bind_apply, call, Inquiry.stores, Journal.asked]
  cases env.answer journal.calls.length (.byThread thread) <;> rfl

theorem onThread_eq_ok_iff {thread : String} {role : Option Role} {connection : Option String}
    {found : Option Exchange} :
    onThread thread role connection env stores journal = (.ok found, after) ↔
      env.answer journal.calls.length (.byThread thread) = .ok () ∧
        select thread role connection (stores.onThread thread) = .ok found ∧
          journal.asked (.byThread thread) = after := by
  rw [onThread_apply]
  cases env.answer journal.calls.length (.byThread thread) <;> simp

theorem onThread_fault {thread : String} {role : Option Role} {connection : Option String}
    {fault : Fault}
    (h : onThread thread role connection env stores journal = (.error (.invalidMessage fault), after)) :
    select thread role connection (stores.onThread thread) = .error (.invalidMessage fault) := by
  rw [onThread_apply] at h
  split at h
  · exact congrArg Prod.fst h
  · cases h

-- A look-up by thread that finds a record finds one that is stored.
theorem onThread_some {thread : String} {role : Option Role} {connection : Option String}
    {e : Exchange}
    (h : onThread thread role connection env stores journal = (.ok (some e), after)) :
    stores.record? e.id = some e ∧ e.Answers thread role connection ∧
      journal.asked (.byThread thread) = after := by
  obtain ⟨-, hselect, hafter⟩ := onThread_eq_ok_iff.1 h
  obtain ⟨hmem, hanswers⟩ := select_some hselect
  have hstored : stores.record? e.id = some e :=
    (stores.records.get?_eq_some_iff e.id e).2 ⟨(Stores.mem_onThread.1 hmem).1, rfl⟩
  exact ⟨hstored, hanswers, hafter⟩

theorem onThread_none {thread : String} {role : Option Role} {connection : Option String}
    (h : onThread thread role connection env stores journal = (.ok none, after)) :
    (∀ e ∈ stores.records.entries, ¬ e.Answers thread role connection) ∧
      journal.asked (.byThread thread) = after := by
  obtain ⟨-, hselect, hafter⟩ := onThread_eq_ok_iff.1 h
  refine ⟨fun e he hanswers => select_none hselect e ?_ hanswers, hafter⟩
  exact Stores.mem_onThread.2 ⟨he, hanswers.1⟩

-- Of the two look-ups of `bound` the first one that finds a record decides.
theorem bound_some {thread : String} {role : Option Role} {connection : Option String}
    {e : Exchange} (h : bound thread role connection env stores journal = (.ok (some e), after)) :
    stores.record? e.id = some e ∧ e.Answers thread role none ∧
      (∀ c ∈ connection, e.connectionId = c ∨ e.connectionId = env.config.connectionlessId) ∧
      after.exchanges = journal.exchanges := by
  unfold bound at h
  obtain ⟨_, _, hconfig, h⟩ := bind_eq_ok_iff.1 h
  cases hconfig
  cases connection with
  | none =>
    obtain ⟨hstored, hanswers, rfl⟩ := onThread_some h
    exact ⟨hstored, ⟨hanswers.1, hanswers.2.1, by simp⟩, by simp, rfl⟩
  | some c =>
    obtain ⟨found, _, hfirst, h⟩ := bind_eq_ok_iff.1 h
    cases found with
    | some first =>
      obtain ⟨hfound, rfl⟩ := pure_eq_ok_iff.1 h
      cases hfound
      obtain ⟨hstored, hanswers, rfl⟩ := onThread_some hfirst
      exact ⟨hstored, ⟨hanswers.1, hanswers.2.1, by simp⟩,
        fun c' hc' => .inl (hanswers.2.2 c' hc'), rfl⟩
    | none =>
      obtain ⟨-, rfl⟩ := onThread_none hfirst
      obtain ⟨hstored, hanswers, rfl⟩ := onThread_some h
      exact ⟨hstored, ⟨hanswers.1, hanswers.2.1, by simp⟩,
        fun c' hc' => .inr (hanswers.2.2 _ rfl), rfl⟩

-- As `bound_some`, for a look-up that is at fault.
theorem bound_fault {thread : String} {role : Option Role} {connection : Option String}
    {fault : Fault}
    (h : bound thread role connection env stores journal = (.error (.invalidMessage fault), after)) :
    ∃ narrowed,
      (∀ c ∈ connection, narrowed = some c ∨ narrowed = some env.config.connectionlessId) ∧
        select thread role narrowed (stores.onThread thread) = .error (.invalidMessage fault) := by
  unfold bound at h
  obtain hconfig | ⟨_, _, hconfig, h⟩ := bind_eq_error_iff.1 h
  · cases hconfig
  cases hconfig
  cases connection with
  | none => exact ⟨none, nofun, onThread_fault h⟩
  | some c =>
    obtain hfirst | ⟨found, _, hfirst, h⟩ := bind_eq_error_iff.1 h
    · exact ⟨some c, fun c' hc' => .inl hc', onThread_fault hfirst⟩
    · cases found with
      | some first => cases h
      | none => exact ⟨_, fun _ _ => .inr rfl, onThread_fault h⟩

theorem bound_exchanges {thread : String} {role : Option Role} {connection : String}
    (h : bound thread role (some connection) env stores journal = (.ok none, after)) :
    after.exchanges = journal.exchanges := by
  unfold bound at h
  obtain ⟨_, _, hconfig, h⟩ := bind_eq_ok_iff.1 h
  cases hconfig
  obtain ⟨found, _, hfirst, h⟩ := bind_eq_ok_iff.1 h
  cases found with
  | some first => cases (pure_eq_ok_iff.1 h).1
  | none =>
    obtain ⟨-, rfl⟩ := onThread_none hfirst
    obtain ⟨-, rfl⟩ := onThread_none h
    rfl

theorem lockedRecord_ok {id : String} {e : Exchange}
    (h : lockedRecord id env stores journal = (.ok e, after)) : stores.record? id = some e := by
  obtain ⟨_, _, _, h⟩ := bind_eq_ok_iff.1 h
  exact (record_eq_ok_iff.1 h).2.1

theorem message_ok {e : Exchange} {kind : Kind} {m : Message}
    (h : message e kind env stores journal = (.ok m, after)) : stores.Holds e kind m := by
  obtain ⟨found, _, hfound, h⟩ := bind_eq_ok_iff.1 h
  obtain ⟨rfl, rfl⟩ := require_eq_ok_iff.1 h
  obtain ⟨_, _, _, hfound⟩ := bind_eq_ok_iff.1 hfound
  obtain ⟨_, _, hstores, hfound⟩ := bind_eq_ok_iff.1 hfound
  cases hstores
  cases hvalue : stores.message? e.id (typeUri e.version kind) with
  | none =>
    simp only [hvalue] at hfound
    cases (pure_eq_ok_iff.1 hfound).1
  | some value =>
    simp only [hvalue] at hfound
    obtain ⟨read, _, hlift, hfound⟩ := bind_eq_ok_iff.1 hfound
    obtain ⟨hread, rfl⟩ := lift_eq_ok_iff.1 hlift
    cases (pure_eq_ok_iff.1 hfound).1
    exact ⟨value, hvalue, hread⟩

-- A record of the given role and state, looked up by its identifier and found to be of the family.
theorem owned_ok {α : Type} {id : String} {version : Version} {role : Role} {state : State}
    {f : Exchange → Inquiry α} {a : α}
    (h : (do
      let e ← lockedRecord id
      e.assertVersion version
      e.assertRole role
      e.assertState [state]
      f e : Inquiry α) env stores journal = (.ok a, after)) :
    ∃ e between, stores.record? id = some e ∧ e.version = version ∧ e.role = role ∧
      e.state = state ∧ f e env stores between = (.ok a, after) := by
  obtain ⟨e, _, hlocked, h⟩ := bind_eq_ok_iff.1 h
  obtain ⟨_, hversion, h⟩ := lift_bind_ok h
  obtain ⟨_, hrole, h⟩ := lift_bind_ok h
  obtain ⟨_, hstate, h⟩ := lift_bind_ok h
  exact ⟨e, _, lockedRecord_ok hlocked, Exchange.assertVersion_ok hversion,
    Exchange.assertRole_ok hrole, Exchange.assertState_ok hstate, h⟩

end Success

-- Whether it succeeds or fails, the inquiry only asks, looks up and draws names.
def Reads (x : Inquiry α) : Prop :=
  ∀ env stores (journal : Journal), journal.Extends env (x env stores journal).2

namespace Reads

theorem pure (a : α) : Reads (pure a) := fun _ _ journal => .refl journal

theorem bind {x : Inquiry α} {f : α → Inquiry β} (hx : Reads x) (hf : ∀ a, Reads (f a)) :
    Reads (x >>= f) := by
  intro env stores journal
  have first := hx env stores journal
  rw [bind_apply]
  cases hrun : x env stores journal with
  | mk result between =>
    rw [hrun] at first
    cases result with
    | error e => exact first
    | ok a => exact first.trans (hf a env stores between)

theorem lift (x : Except Error α) : Reads (liftM x : Inquiry α) := fun _ _ journal => .refl journal

theorem fail (e : Error) : Reads (fail e : Inquiry α) := fun _ _ journal => .refl journal

theorem require (found : Option α) (what : Missing) : Reads (require found what) := by
  cases found with
  | none => exact fail _
  | some a => exact pure a

theorem call {c : Call} (read : c.isEffect = false) : Reads (call c) :=
  fun _ _ journal => .asked journal read

theorem config : Reads config := fun _ _ journal => .refl journal

theorem stores : Reads stores := fun _ _ journal => .refl journal

theorem newThread : Reads newThread := fun env _ j =>
  ⟨⟨[], by simp [Inquiry.newThread]⟩, Nat.le_succ _, Nat.le_refl _, Nat.le_refl _, .refl env j⟩

theorem newExchange : Reads newExchange := fun env _ j =>
  ⟨⟨[], by simp [Inquiry.newExchange]⟩, Nat.le_refl _, Nat.le_succ _, Nat.le_refl _, .refl env j⟩

theorem newMessage : Reads newMessage := fun env _ j =>
  ⟨⟨[], by simp [Inquiry.newMessage]⟩, Nat.le_refl _, Nat.le_refl _, Nat.le_succ _, .refl env j⟩

theorem newRecord (role : Role) (version : Version) (state : State) (thread connection : String) :
    Reads (newRecord role version state thread connection) :=
  .bind newExchange fun _ => .bind (fun _ _ journal => .refl journal) fun _ => pure _

theorem reply (thread : String) : Reads (reply thread) :=
  .bind newMessage fun _ => pure _

theorem record (id : String) : Reads (record id) :=
  .bind (.bind (call rfl) fun _ => .bind stores fun _ => pure _) fun _ => require _ _

theorem lockedRecord (id : String) : Reads (lockedRecord id) :=
  .bind (record id) fun _ => record id

theorem onThread (thread : String) (role : Option Role) (connection : Option String) :
    Reads (onThread thread role connection) :=
  .bind (call rfl) fun _ => .bind stores fun _ => lift _

theorem bound (thread : String) (role : Option Role) (connection : Option String) :
    Reads (bound thread role connection) := by
  refine .bind config fun _ => ?_
  cases connection with
  | none => exact onThread _ _ _
  | some c =>
    refine .bind (onThread _ _ _) fun found => ?_
    cases found with
    | none => exact onThread _ _ _
    | some e => exact pure _

theorem message (e : Exchange) (kind : Kind) : Reads (message e kind) := by
  refine .bind (.bind (call rfl) fun _ => .bind stores fun s => ?_) fun _ => require _ _
  split
  · exact pure _
  · exact .bind (lift _) fun _ => pure _

-- Either the cache answers and nothing happens, or the ledger is asked once.
theorem ledger (artifact : Artifact) (id : String) : Reads (ledger artifact id) := by
  intro env stores journal
  have asked : journal.Extends env (journal.asked (.ledger artifact id)) := .asked journal rfl
  simp only [Inquiry.ledger, Cache.lookup, Inquiry.call]
  split
  · exact .refl journal
  · cases hanswer : env.answer journal.calls.length (.ledger artifact id) with
    | error text => exact asked
    | ok value =>
      refine ⟨asked.calls, asked.threads, asked.exchanges, asked.messages, fun entry hentry => ?_⟩
      rcases Cache.mem_store hentry with hkept | rfl
      · exact .inl hkept
      · exact .inr ⟨_, hanswer⟩

end Reads

end Inquiry

end CredentialIssuance
