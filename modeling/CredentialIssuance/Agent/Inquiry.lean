import CredentialIssuance.Agent.Environment
import CredentialIssuance.Message.Family
import CredentialIssuance.Message.Payload

namespace CredentialIssuance

-- An inquiry looks things up, asks collaborators and checks guards. It sees the stores and cannot
-- change them.
def Inquiry (α : Type) : Type := Environment → Stores → Journal → Except Error α × Journal

namespace Inquiry

variable {α β : Type}

protected def pure (a : α) : Inquiry α := fun _ _ journal => (.ok a, journal)

protected def bind (x : Inquiry α) (f : α → Inquiry β) : Inquiry β := fun env stores journal =>
  match x env stores journal with
  | (.ok a, journal) => f a env stores journal
  | (.error e, journal) => (.error e, journal)

instance : Monad Inquiry where
  pure := Inquiry.pure
  bind := Inquiry.bind

theorem pure_apply (a : α) (env : Environment) (stores : Stores) (journal : Journal) :
    (pure a : Inquiry α) env stores journal = (.ok a, journal) := rfl

-- What follows a step runs only if the step succeeds, and goes on from the journal it leaves.
theorem bind_apply (x : Inquiry α) (f : α → Inquiry β) (env : Environment) (stores : Stores)
    (journal : Journal) :
    (x >>= f) env stores journal =
      match x env stores journal with
      | (.ok a, journal) => f a env stores journal
      | (.error e, journal) => (.error e, journal) := rfl

theorem bind_eq_ok_iff {x : Inquiry α} {f : α → Inquiry β} {env : Environment} {stores : Stores}
    {journal after : Journal} {b : β} :
    (x >>= f) env stores journal = (.ok b, after) ↔
      ∃ a between, x env stores journal = (.ok a, between) ∧
        f a env stores between = (.ok b, after) := by
  rw [bind_apply]
  rcases x env stores journal with ⟨_ | a, between⟩ <;> simp [and_assoc]

theorem bind_eq_error_iff {x : Inquiry α} {f : α → Inquiry β} {env : Environment} {stores : Stores}
    {journal after : Journal} {e : Error} :
    (x >>= f) env stores journal = (.error e, after) ↔
      x env stores journal = (.error e, after) ∨
        ∃ a between,
          x env stores journal = (.ok a, between) ∧ f a env stores between = (.error e, after) := by
  rw [bind_apply]
  rcases x env stores journal with ⟨_ | a, between⟩ <;> simp [and_assoc]

instance : LawfulMonad Inquiry := .mk' _
  (fun x => by
    funext env stores journal
    show Inquiry.bind x _ env stores journal = _
    unfold Inquiry.bind
    rcases x env stores journal with ⟨_ | a, between⟩ <;> rfl)
  (fun _ _ => rfl)
  (fun x f g => by
    funext env stores journal
    simp only [bind_apply]
    rcases x env stores journal with ⟨_ | a, between⟩ <;> rfl)

def ofExcept (x : Except Error α) : Inquiry α := fun _ _ journal => (x, journal)

instance : MonadLift (Except Error) Inquiry := ⟨ofExcept⟩

def fail (e : Error) : Inquiry α := ofExcept (.error e)

-- What a lookup found, or an error if it found nothing.
def require (found : Option α) (what : Missing) : Inquiry α :=
  match found with
  | some a => pure a
  | none => fail (.notFound what)

-- Every call is recorded, whether it fails or not.
def call (c : Call) : Inquiry c.Answer := fun env _ journal =>
  let answer :=
    match env.answer journal.calls.length c with
    | .ok a => .ok a
    | .error text => .error (.external text)
  (answer, { journal with calls := journal.calls ++ [c] })

theorem call_eq_ok_iff {c : Call} {env : Environment} {stores : Stores} {journal after : Journal}
    {a : c.Answer} :
    call c env stores journal = (.ok a, after) ↔
      env.answer journal.calls.length c = .ok a ∧
        after = { journal with calls := journal.calls ++ [c] } := by
  unfold call
  cases env.answer journal.calls.length c <;> simp [eq_comm]

def config : Inquiry Config := fun env _ journal => (.ok env.config, journal)

def now : Inquiry Timestamp := fun env _ journal => (.ok (env.now journal.calls.length), journal)

def stores : Inquiry Stores := fun _ stores journal => (.ok stores, journal)

def newThread : Inquiry String := fun env _ journal =>
  (.ok (env.threadName journal.threads), { journal with threads := journal.threads + 1 })

def newMessage : Inquiry String := fun env _ journal =>
  (.ok (env.messageName journal.messages), { journal with messages := journal.messages + 1 })

def newExchange : Inquiry String := fun env _ journal =>
  (.ok (env.exchangeName journal.exchanges), { journal with exchanges := journal.exchanges + 1 })

def newRecord (role : Role) (version : Version) (state : State) (thread connection : String) :
    Inquiry Exchange := do
  return .new (← newExchange) role version state thread connection (← now)

def reply (thread : String) : Inquiry Header := do return .reply (← newMessage) thread

def find? (id : String) : Inquiry (Option Exchange) := do
  let shown ← call (.get id)
  let stores ← stores
  return if shown then stores.record? id else none

def record (id : String) : Inquiry Exchange := do require (← find? id) (.exchange id)

-- A record is looked up to learn its thread, and once more when the thread is its own.
def lockedRecord (id : String) : Inquiry Exchange := do
  let _ ← record id
  record id

-- The one record among those listed that is on the thread, has the role and is bound to the
-- connection, where role and connection may be left open.
def select (thread : String) (role : Option Role) (connection : Option String)
    (listed : List Exchange) : Except Error (Option Exchange) :=
  let matching := listed.filter fun e =>
    e.threadId = thread && role.all (e.role = ·) && connection.all (e.connectionId = ·)
  match matching with
  | [] => .ok none
  | [e] => .ok (some e)
  | _ => .error (.invalidMessage (.ambiguousThread thread))

def onThread (thread : String) (role : Option Role) (connection : Option String) :
    Inquiry (Option Exchange) := do
  call (.byThread thread)
  select thread role connection ((← stores).onThread thread)

-- The record bound to the connection, or else the one that has no connection yet; `find` looks
-- for the record that is bound to the connection it is given. Without a connection nothing is
-- asked of the binding.
def preferBound {m : Type → Type} [Monad m] (connectionless : String)
    (find : Option String → m (Option Exchange)) : Option String → m (Option Exchange)
  | none => find none
  | some connection => do
    match ← find (some connection) with
    | some e => return some e
    | none => find (some connectionless)

-- As `onThread`, but a record without a connection of its own also counts.
def bound (thread : String) (role : Option Role) (connection : Option String) :
    Inquiry (Option Exchange) := do
  preferBound (← config).connectionlessId (onThread thread role) connection

def message? (e : Exchange) (kind : Kind) : Inquiry (Option Message) := do
  let type := typeUri e.version kind
  call (.findMessage e.id type)
  match (← stores).message? e.id type with
  | none => return none
  | some value => return some (← Message.ofJson value)

def message (e : Exchange) (kind : Kind) : Inquiry Message := do
  require (← message? e kind) (.message kind e.id)

-- Ledger answers come from the cache while they are fresh there.
def ledger (artifact : Artifact) (id : String) : Inquiry String := fun env stores journal =>
  let clock (journal : Journal) : Nat := env.clock journal.calls.length
  let ask (artifact : Artifact) (id : String) : Journal → Except Error String × Journal :=
    call (.ledger artifact id) env stores
  let (answer, cache, journal) := journal.cache.lookup env.config.cache clock ask artifact id journal
  (answer, { journal with cache })

end Inquiry

-- The stored message of that kind on an exchange, if there is one.
def findMessage (exchange : String) (kind : Kind) : Inquiry (Option Message) := do
  Inquiry.message? (← Inquiry.record exchange) kind

end CredentialIssuance
