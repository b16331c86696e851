import CredentialIssuance.Proofs.Functional
import CredentialIssuance.Proofs.Life

namespace CredentialIssuance

-- What is put where the filter looks is filtered in its place.
theorem Table.filter_upsert {α κ : Type} [DecidableEq κ] {key : α → κ} {keep : α → Bool} {new : α}
    (hnew : keep new = true) {entries : List α}
    (place : ∀ old ∈ entries, key old = key new → keep old = true) :
    (Table.upsert key new entries).filter keep = Table.upsert key new (entries.filter keep) := by
  induction entries with
  | nil => simp [upsert, hnew]
  | cons old rest ih =>
    have hrest := ih fun a ha => place a (List.mem_cons_of_mem old ha)
    by_cases hkey : key old = key new
    · have hold := place old List.mem_cons_self hkey
      simp [upsert, hkey, hnew, hold]
    · by_cases hold : keep old = true
      · simp [upsert, hkey, hold, hrest]
      · simp [upsert, hkey, hold, hrest]

-- What is put elsewhere is not seen.
theorem Table.filter_upsert_of_not {α κ : Type} [DecidableEq κ] {key : α → κ} {keep : α → Bool}
    {new : α} (hnew : keep new = false) {entries : List α}
    (place : ∀ old ∈ entries, key old = key new → keep old = false) :
    (Table.upsert key new entries).filter keep = entries.filter keep := by
  induction entries with
  | nil => simp [upsert, hnew]
  | cons old rest ih =>
    have hrest := ih fun a ha => place a (List.mem_cons_of_mem old ha)
    by_cases hkey : key old = key new
    · have hold := place old List.mem_cons_self hkey
      simp [upsert, hkey, hnew, hold]
    · simp [upsert, hkey, List.filter_cons, hrest]

-- No name is given back.
structure Journal.Precedes (env : Environment) (before after : Journal) : Prop where
  exchanges : before.exchanges ≤ after.exchanges
  messages : before.messages ≤ after.messages
  calls : before.calls.length ≤ after.calls.length
  caches : before.Caches env after

section Precedes

variable {env : Environment}

theorem Journal.Precedes.refl (j : Journal) : j.Precedes env j :=
  ⟨Nat.le_refl _, Nat.le_refl _, Nat.le_refl _, .refl env j⟩

theorem Journal.Precedes.trans {a b c : Journal} (first : a.Precedes env b)
    (second : b.Precedes env c) : a.Precedes env c where
  exchanges := Nat.le_trans first.exchanges second.exchanges
  messages := Nat.le_trans first.messages second.messages
  calls := Nat.le_trans first.calls second.calls
  caches := first.caches.trans second.caches

theorem Journal.Precedes.asked (j : Journal) (c : Call) : j.Precedes env (j.asked c) :=
  ⟨Nat.le_refl _, Nat.le_refl _, by simp [Journal.asked], .refl env j⟩

theorem Journal.Extends.precedes {before after : Journal} (h : before.Extends env after) :
    before.Precedes env after := by
  obtain ⟨made, hcalls, -⟩ := h.calls
  exact ⟨h.exchanges, h.messages, by simp [hcalls], h.caches⟩

end Precedes

-- No name is given back by the action.
def Action.Grows {α : Type} (x : Action α) : Prop :=
  ∀ env (world : World), world.journal.Precedes env (x env world).2.journal

namespace Action.Grows

variable {α β : Type}

theorem pure (a : α) : (pure a : Action α).Grows := fun _ world => .refl world.journal

theorem lift (x : Except Error α) : (liftM x : Action α).Grows := fun _ world => .refl world.journal

theorem ofReads {x : Inquiry α} (hx : x.Reads) : (liftM x : Action α).Grows :=
  fun env world => (hx env world.stores world.journal).precedes

theorem bind {x : Action α} {f : α → Action β} (hx : x.Grows) (hf : ∀ a, (f a).Grows) :
    (x >>= f).Grows := by
  intro env world
  have hfirst := hx env world
  rw [bind_apply]
  cases hrun : x env world with
  | mk result between =>
    rw [hrun] at hfirst
    cases result with
    | error e => exact hfirst
    | ok a => exact hfirst.trans (hf a env between)

theorem saveMessage (exchange : String) (party : Party) (m : Message) :
    (saveMessage exchange party m).Grows := by
  intro env world
  rw [saveMessage_apply]
  split <;> exact .asked world.journal _

theorem put (e : Exchange) : (put e).Grows := by
  intro env world
  rw [put_apply]
  split <;> exact .asked world.journal _

theorem publish (event : Event) : (publish event).Grows :=
  fun _ world => .asked world.journal _

theorem replace (e : Exchange) : (replace e).Grows :=
  .bind (.ofReads (.record e.id)) fun _ => .put e

end Action.Grows

theorem Change.commit_grows (c : Change) : c.commit.Grows := by
  refine .bind (.saveMessage _ _ _) fun _ => ?_
  cases c.next with
  | none => exact .bind (.put _) fun _ => .bind (.publish _) fun _ => .pure _
  | some next =>
    exact .bind (fun _ world => .refl world.journal) fun _ => .bind (.lift _) fun _ =>
      .bind (.replace _) fun _ => .bind (.publish _) fun _ => .pure _

theorem Operation.run_grows (version : Version) (operation : Operation) :
    (operation.run version).Grows :=
  .bind (.ofReads (operation.plan_reads version)) fun c => .bind c.commit_grows fun _ => .pure _

-- What an operation is about: the thread of the message that it takes in, or that of the record
-- that it names.
def Operation.On (thread : String) (s : Stores) : Operation → Prop
  | .receive _ inbound => inbound.message.threadId = thread
  | operation => ∃ id ∈ operation.exchange?, ∃ e, s.record? id = some e ∧ e.threadId = thread

theorem Operation.On.of_named {operation : Operation} {thread : String} {s : Stores} {id : String}
    {e : Exchange} (named : operation.exchange? = some id) (stored : s.record? id = some e)
    (hthread : e.threadId = thread) : operation.On thread s := by
  cases operation with
  | receive => cases named
  | _ => exact ⟨id, named, e, stored, hthread⟩

theorem Operation.On.cases {operation : Operation} {thread : String} {s : Stores}
    (on : operation.On thread s) :
    (∃ kind inbound, operation = .receive kind inbound ∧ inbound.message.threadId = thread) ∨
      ∃ e, operation.exchange? = some e.id ∧ s.record? e.id = some e ∧ e.threadId = thread := by
  have hnamed (on : ∃ id ∈ operation.exchange?, ∃ e, s.record? id = some e ∧ e.threadId = thread) :
      ∃ e, operation.exchange? = some e.id ∧ s.record? e.id = some e ∧ e.threadId = thread := by
    obtain ⟨id, hid, e, he, hthread⟩ := on
    obtain ⟨-, rfl⟩ := Stores.record?_eq_some_iff.1 he
    exact ⟨e, hid, he, hthread⟩
  cases operation with
  | receive kind inbound => exact .inl ⟨kind, inbound, rfl, on⟩
  | _ => exact .inr (hnamed on)

-- The names of records that have not been drawn yet are not in use.
def World.Unclaimed (env : Environment) (w : World) : Prop :=
  ∀ n, w.journal.exchanges ≤ n → w.stores.record? (env.exchangeName n) = none

-- No message is filed under them either.
def World.Unfiled (env : Environment) (w : World) : Prop :=
  ∀ n, w.journal.exchanges ≤ n → ∀ type, w.stores.messages.get? (env.exchangeName n, type) = none

section Planned

variable {env : Environment} {w : World} {thread : String} {version : Version}
  {operation : Operation} {c : Change} {j : Journal}

-- What is written belongs to the thread.
theorem Operation.On.threadId (on : operation.On thread w.stores)
    (h : operation.plan version env w.stores w.journal = (.ok c, j)) :
    c.record.threadId = thread := by
  have hplanned := plan_ok h
  rcases on.cases with ⟨kind, inbound, rfl, hthread⟩ | ⟨e, hid, he, hthread⟩
  · have hmessage : c.message = inbound.message := hplanned.carries
    rw [← hplanned.thread, hmessage, hthread]
  · obtain ⟨hsame, next, hnext⟩ := plan_named hid h
    obtain ⟨old, hold, horigin, -⟩ := (hplanned.moves next hnext).stored
    rw [hsame] at hold
    cases hold.symm.trans he
    exact horigin.threadId.trans hthread

-- It replaces nothing but a record of the thread, and it has been found there or its name is new.
theorem Operation.On.place (on : operation.On thread w.stores) (unclaimed : w.Unclaimed env)
    (h : operation.plan version env w.stores w.journal = (.ok c, j)) :
    (∀ old, w.stores.record? c.record.id = some old → old.threadId = thread) ∧
      (w.stores.record? c.record.id = none → c.record.id = env.exchangeName w.journal.exchanges ∧
        j.exchanges = w.journal.exchanges + 1) := by
  have hthread := on.threadId h
  have hplanned := plan_ok h
  cases hnext : c.next with
  | none =>
    have hopens := hplanned.opens hnext
    have hnone : w.stores.record? c.record.id = none := by
      rw [hopens.id]
      exact unclaimed _ (Nat.le_refl _)
    refine ⟨fun old hold => ?_, fun _ => ⟨hopens.id, hopens.drawn⟩⟩
    cases hnone.symm.trans hold
  | some next =>
    obtain ⟨old, hold, horigin, -⟩ := (hplanned.moves next hnext).stored
    refine ⟨fun other hother => ?_, fun hnone => ?_⟩
    · cases hold.symm.trans hother
      exact horigin.threadId.symm.trans hthread
    · cases hnone.symm.trans hold

end Planned

-- After the planning no name is drawn any more.
theorem Operation.run_exchanges {env : Environment} {w : World} {version : Version}
    {operation : Operation} {c : Change} {j : Journal}
    (h : operation.plan version env w.stores w.journal = (.ok c, j)) :
    (operation.run version env w).2.journal.exchanges = j.exchanges := by
  cases hrun : operation.run version env w with
  | mk result after =>
    cases result with
    | error x =>
      rcases run_eq_error hrun with ⟨_, hplan, -⟩ | ⟨c', j', hplan, hcommit⟩
      · cases h.symm.trans hplan
      · cases h.symm.trans hplan
        exact (Change.commit_error hcommit).exchanges
    | ok o =>
      obtain ⟨c', j', hplan, hcommit, -⟩ := run_eq_ok hrun
      cases h.symm.trans hplan
      exact (Change.commit_ok hcommit).exchanges

-- At most the planned record is put.
theorem Operation.run_records (version : Version) (operation : Operation) (env : Environment)
    (w : World) :
    (operation.run version env w).2.stores.records = w.stores.records ∨
      ∃ c j e, operation.plan version env w.stores w.journal = (.ok c, j) ∧
        e.id = c.record.id ∧ e.threadId = c.record.threadId ∧
        (operation.run version env w).2.stores.records = w.stores.records.put e := by
  cases hrun : operation.run version env w with
  | mk result after =>
    cases result with
    | error x => exact .inl (run_error hrun).records
    | ok o =>
      obtain ⟨c, j, hplan, hcommit, -⟩ := run_eq_ok hrun
      obtain ⟨previous, hstep⟩ := run_ok hrun
      obtain ⟨updated, hrecord⟩ := (Change.commit_ok hcommit).record.eq
      exact .inr ⟨c, j, o.record, hplan, by rw [hrecord], by rw [hrecord], hstep.records⟩

section Unclaimed

variable {env : Environment} (names : Function.Injective env.exchangeName) {w : World}
  (unclaimed : w.Unclaimed env)
include names unclaimed

-- What an operation writes, it writes under a name that has been drawn.
theorem World.Unclaimed.planned {version : Version} {operation : Operation} {c : Change} {j : Journal}
    (h : operation.plan version env w.stores w.journal = (.ok c, j)) {n : Nat}
    (hn : j.exchanges ≤ n) : c.record.id ≠ env.exchangeName n := by
  intro hid
  have hplanned := Operation.plan_ok h
  cases hnext : c.next with
  | none =>
    have hopens := hplanned.opens hnext
    have hdrawn : j.exchanges = w.journal.exchanges + 1 := hopens.drawn
    have hsame := names (hopens.id.symm.trans hid)
    omega
  | some next =>
    obtain ⟨old, hold, -⟩ := (hplanned.moves next hnext).stored
    have hreads := operation.plan_reads version env w.stores w.journal
    rw [h] at hreads
    rw [hid, unclaimed n (Nat.le_trans hreads.exchanges hn)] at hold
    cases hold

theorem World.Unclaimed.run (version : Version) (operation : Operation) :
    (operation.run version env w).2.Unclaimed env := by
  intro n hn
  have hnone := unclaimed n (Nat.le_trans (operation.run_grows version env w).exchanges hn)
  rcases operation.run_records version env w with hrecords | ⟨c, j, e, hplan, hsame, -, hrecords⟩
  · rwa [Stores.record?, hrecords]
  · rw [Operation.run_exchanges hplan] at hn
    have hunnamed := unclaimed.planned names hplan hn
    rwa [Stores.record?, hrecords, Table.get?_put, if_neg (hsame ▸ hunnamed)]

theorem World.Unfiled.run (unfiled : w.Unfiled env) (version : Version) (operation : Operation) :
    (operation.run version env w).2.Unfiled env := by
  intro n hn type
  have hgrows := operation.run_grows version env w
  rw [Operation.run_spares fun c j hplan hkey => ?_]
  · exact unfiled n (Nat.le_trans hgrows.exchanges hn) type
  · rw [Operation.run_exchanges hplan] at hn
    exact unclaimed.planned names hplan hn (congrArg Prod.fst hkey)

end Unclaimed

-- The record that an operation has written is on the thread of the message.
theorem Operation.On.follows {env : Environment} {inbound : Inbound} {w after : World}
    {received : Outcome} {operation : Operation} {thread : String}
    (hthread : inbound.message.threadId = thread)
    (hrun : (Operation.receive inbound.message.kind inbound).run inbound.message.version env w =
      (.ok received, after))
    (named : operation.exchange? = some received.record.id) : operation.On thread after.stores := by
  obtain ⟨previous, hstep⟩ := Operation.run_ok hrun
  have hmessage : received.message = inbound.message := hstep.carries
  refine .of_named named (hstep.record? _ |>.trans (if_pos rfl)) ?_
  rw [← hstep.thread, hmessage, hthread]

-- An operation that is called, or a message that is dispatched.
inductive Task where
  | operate (version : Version) (operation : Operation)
  | dispatch (inbound : Inbound)

def Task.run : Task → Action (Outcome ⊕ Option Outbound)
  | .operate version operation => do return .inl (← operation.run version)
  | .dispatch inbound => do return .inr (← inbound.dispatch)

theorem Inbound.dispatch_grows (inbound : Inbound) : inbound.dispatch.Grows := by
  refine .bind (Operation.run_grows _ _) fun received => .bind (.ofReads .config) fun config => ?_
  cases followUp? config.autoAccept inbound.message.kind received.record with
  | none => exact .pure none
  | some operation =>
    exact .bind (operation.run_grows _) fun answer =>
      .bind (.ofReads (address_reads inbound answer.record)) fun _ => .pure _

theorem Task.run_grows (task : Task) : task.run.Grows := by
  cases task with
  | operate version operation => exact .bind (operation.run_grows version) fun _ => .pure _
  | dispatch inbound => exact .bind inbound.dispatch_grows fun _ => .pure _

-- The family in which the task is done.
def Task.version : Task → Version
  | .operate version _ => version
  | .dispatch inbound => inbound.message.version

def Task.On (thread : String) (s : Stores) : Task → Prop
  | .operate _ operation => operation.On thread s
  | .dispatch inbound => inbound.message.threadId = thread

-- No name that is still to be drawn is in use, and the cache keeps what the ledger answers.
structure World.Settled (env : Environment) (w : World) : Prop where
  unclaimed : w.Unclaimed env
  backed : env.Backs w.journal.cache

namespace World.Settled

variable {env : Environment} {w : World}

theorem empty (env : Environment) : World.empty.Settled env where
  unclaimed _ _ := rfl
  backed := by
    intro entry hentry
    cases hentry

section Keeping

variable (functional : env.Functional) (names : Function.Injective env.exchangeName)
  (settled : w.Settled env)
include functional settled

theorem rested {after : World} (h : Rested env w after) : after.Settled env where
  unclaimed n hn := by
    rw [h.record?]
    exact settled.unclaimed n (Nat.le_trans h.exchanges hn)
  backed := settled.backed.caches functional h.caches

include names

theorem run (version : Version) (operation : Operation) :
    (operation.run version env w).2.Settled env where
  unclaimed := settled.unclaimed.run names version operation
  backed := settled.backed.caches functional (operation.run_grows version env w).caches

-- An agent that is settled stays so as long as it lives.
theorem live (deeds : List Deed) : (env.live w deeds).Settled env := by
  refine Environment.live_induction (fun between deed _ hbetween => ?_) settled
  exact Deed.perform_induction (fun _ _ h hrested => h.rested functional hrested)
    (fun _ version operation _ _ h => h.run functional names version operation) hbetween

end Keeping

end World.Settled

namespace World.Unfiled

variable {env : Environment} {w : World} (unfiled : w.Unfiled env)
include unfiled

theorem rested {after : World} (h : Rested env w after) : after.Unfiled env := by
  intro n hn type
  rw [h.messages]
  exact unfiled n (Nat.le_trans h.exchanges hn) type

theorem live (functional : env.Functional) (names : Function.Injective env.exchangeName)
    (settled : w.Settled env) (deeds : List Deed) : (env.live w deeds).Unfiled env := by
  refine (Environment.live_induction (P := fun w => w.Settled env ∧ w.Unfiled env)
    (fun between deed _ hbetween => ?_) ⟨settled, unfiled⟩).2
  refine Deed.perform_induction (P := fun w => w.Settled env ∧ w.Unfiled env) ?_ ?_ hbetween
  · rintro before after ⟨hsettled, hunfiled⟩ hrested
    exact ⟨hsettled.rested functional hrested, hunfiled.rested hrested⟩
  · rintro between version operation - - ⟨hsettled, hunfiled⟩
    exact ⟨hsettled.run functional names _ _, hunfiled.run names hsettled.unclaimed _ _⟩

end World.Unfiled

-- The identifiers of the records that are on the thread, and those that are drawn up to a later
-- world.
def World.Touched (env : Environment) (thread : String) (w after : World) : Set String :=
  { id | (∃ e, w.stores.record? id = some e ∧ e.threadId = thread) ∨
    ∃ n, w.journal.exchanges ≤ n ∧ n < after.journal.exchanges ∧ env.exchangeName n = id }

-- What neither belongs to a record of the thread nor is still to be drawn is not touched.
theorem World.not_touched {env : Environment} {thread id : String} {w : World}
    (stored : ∀ e, w.stores.record? id = some e → e.threadId ≠ thread)
    (drawn : ∀ n, w.journal.exchanges ≤ n → env.exchangeName n ≠ id) (after : World) :
    id ∉ w.Touched env thread after := by
  rintro (⟨e, hstored, hthread⟩ | ⟨n, hn, -, hname⟩)
  · exact stored e hstored hthread
  · exact drawn n hn hname

-- Nothing else has been touched.
structure World.Confined (env : Environment) (thread : String) (w after : World) : Prop where
  exchanges : w.journal.exchanges ≤ after.journal.exchanges
  record? : ∀ id ∉ w.Touched env thread after, after.stores.record? id = w.stores.record? id
  messages : ∀ id ∉ w.Touched env thread after, ∀ type,
    after.stores.messages.get? (id, type) = w.stores.messages.get? (id, type)
  elsewhere : ∀ other, other ≠ thread → after.stores.onThread other = w.stores.onThread other

namespace World.Confined

variable {env : Environment} {thread : String} {w between after : World}

theorem of_rested (h : Rested env w after) : w.Confined env thread after where
  exchanges := h.exchanges
  record? id _ := h.record? id
  messages id _ type := by rw [h.messages]
  elsewhere other _ := by rw [Stores.onThread, h.records, Stores.onThread]

theorem trans (first : w.Confined env thread between) (second : between.Confined env thread after) :
    w.Confined env thread after := by
  have hcount := first.exchanges
  have hcount' := second.exchanges
  have hleft (id : String) (hid : id ∉ w.Touched env thread after) :
      id ∉ w.Touched env thread between := by
    rintro (hstored | ⟨n, hn, hlast, hname⟩)
    · exact hid (.inl hstored)
    · exact hid (.inr ⟨n, hn, by omega, hname⟩)
  -- What is on the thread in between has been there before or has been opened since.
  have hright (id : String) (hid : id ∉ w.Touched env thread after) :
      id ∉ between.Touched env thread after := by
    rintro (⟨e, hstored, hthread⟩ | ⟨n, hn, hlast, hname⟩)
    · rw [first.record? id (hleft id hid)] at hstored
      exact hid (.inl ⟨e, hstored, hthread⟩)
    · exact hid (.inr ⟨n, by omega, hlast, hname⟩)
  constructor
  case exchanges => omega
  case record? =>
    intro id hid
    rw [second.record? id (hright id hid), first.record? id (hleft id hid)]
  case messages =>
    intro id hid type
    rw [second.messages id (hright id hid), first.messages id (hleft id hid)]
  case elsewhere =>
    intro other hother
    rw [second.elsewhere other hother, first.elsewhere other hother]

end World.Confined

theorem Stores.onThread_put {s : Stores} {e : Exchange} {thread : String}
    (hthread : e.threadId = thread)
    (place : ∀ old, s.record? e.id = some old → old.threadId = thread) :
    (s.put e).onThread thread = Table.upsert Exchange.id e (s.onThread thread) := by
  refine Table.filter_upsert (by simpa using hthread) fun old hold hid => ?_
  simpa using place old (Stores.record?_eq_some_iff.2 ⟨hold, hid⟩)

-- A record that is put on one thread is not seen from another.
theorem Stores.onThread_put_of_ne {s : Stores} {e : Exchange} {thread : String}
    (hne : e.threadId ≠ thread)
    (place : ∀ old, s.record? e.id = some old → old.threadId = e.threadId) :
    (s.put e).onThread thread = s.onThread thread := by
  refine Table.filter_upsert_of_not (by simpa using hne) fun old hold hid => ?_
  have hthread := place old (Stores.record?_eq_some_iff.2 ⟨hold, hid⟩)
  simpa [hthread] using hne

section Confined

variable {env : Environment} {w : World} {thread : String}

-- A change is written under an identifier that may be touched.
theorem Operation.On.touches {version : Version} {operation : Operation} {c : Change} {j : Journal}
    (on : operation.On thread w.stores) (unclaimed : w.Unclaimed env)
    (h : operation.plan version env w.stores w.journal = (.ok c, j)) :
    c.record.id ∈ w.Touched env thread (operation.run version env w).2 := by
  obtain ⟨hplace, hnew⟩ := on.place unclaimed h
  cases hstored : w.stores.record? c.record.id with
  | some old => exact .inl ⟨old, hstored, hplace old hstored⟩
  | none =>
    obtain ⟨hid, hdrawn⟩ := hnew hstored
    refine .inr ⟨_, Nat.le_refl _, ?_, hid.symm⟩
    rw [Operation.run_exchanges h]
    omega

theorem Operation.run_confined {version : Version} {operation : Operation}
    (on : operation.On thread w.stores) (unclaimed : w.Unclaimed env) :
    w.Confined env thread (operation.run version env w).2 := by
  have htouches {c : Change} {j : Journal} {id : String}
      (hid : id ∉ w.Touched env thread (operation.run version env w).2)
      (hplan : operation.plan version env w.stores w.journal = (.ok c, j)) : c.record.id ≠ id :=
    fun hsame => hid (hsame ▸ on.touches unclaimed hplan)
  constructor
  case exchanges => exact (operation.run_grows version env w).exchanges
  case messages =>
    intro id hid type
    exact Operation.run_spares fun c j hplan hkey =>
      htouches hid hplan (congrArg Prod.fst hkey)
  case record? =>
    intro id hid
    rcases operation.run_records version env w with hrecords | ⟨c, j, e, hplan, hsame, -, hrecords⟩
    · rw [Stores.record?, hrecords, Stores.record?]
    · rw [Stores.record?, hrecords, Table.get?_put, if_neg (hsame ▸ htouches hid hplan),
        Stores.record?]
  case elsewhere =>
    intro other hother
    rcases operation.run_records version env w with
      hrecords | ⟨c, j, e, hplan, hsame, hthread, hrecords⟩
    · rw [Stores.onThread, hrecords, Stores.onThread]
    · have hon : e.threadId = thread := hthread.trans (on.threadId hplan)
      rw [Stores.onThread, hrecords]
      refine Stores.onThread_put_of_ne (hon.trans_ne hother.symm) fun old hold => ?_
      rw [hsame] at hold
      exact ((on.place unclaimed hplan).1 old hold).trans hon.symm

variable (functional : env.Functional) (names : Function.Injective env.exchangeName)
  (settled : w.Settled env)
include functional names settled

theorem Inbound.dispatch_confined {inbound : Inbound} (hthread : inbound.message.threadId = thread) :
    w.Confined env thread (inbound.dispatch env w).2 ∧ (inbound.dispatch env w).2.Settled env := by
  refine Deed.dispatch_induction
    (P := fun after => w.Confined env thread after ∧ after.Settled env) ?_ ?_ ?_
  · rintro before after ⟨hconfined, hsettled⟩ hrested
    exact ⟨hconfined.trans (.of_rested hrested), hsettled.rested functional hrested⟩
  · exact ⟨Operation.run_confined hthread settled.unclaimed, settled.run functional names _ _⟩
  · rintro received between operation hrun - named ⟨hconfined, hsettled⟩
    refine ⟨hconfined.trans ?_, hsettled.run functional names _ _⟩
    exact Operation.run_confined (.follows hthread hrun named) hsettled.unclaimed

namespace Task

variable {task : Task}

theorem confined (on : task.On thread w.stores) :
    w.Confined env thread (task.run env w).2 ∧ (task.run env w).2.Settled env := by
  cases task with
  | operate version operation =>
    rw [run, Action.bind_pure_snd]
    exact ⟨operation.run_confined on settled.unclaimed, settled.run functional names _ _⟩
  | dispatch inbound =>
    rw [run, Action.bind_pure_snd]
    exact inbound.dispatch_confined functional names settled on

end Task

end Confined

end CredentialIssuance
