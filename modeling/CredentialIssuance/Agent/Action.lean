import CredentialIssuance.Agent.Inquiry

namespace CredentialIssuance

-- An action is an inquiry that may also change the stores.
def Action (α : Type) : Type := Environment → World → Except Error α × World

namespace Action

variable {α β : Type}

protected def pure (a : α) : Action α := fun _ world => (.ok a, world)

protected def bind (x : Action α) (f : α → Action β) : Action β := fun env world =>
  match x env world with
  | (.ok a, world) => f a env world
  | (.error e, world) => (.error e, world)

instance : Monad Action where
  pure := Action.pure
  bind := Action.bind

theorem pure_apply (a : α) (env : Environment) (world : World) :
    (pure a : Action α) env world = (.ok a, world) := rfl

theorem bind_apply (x : Action α) (f : α → Action β) (env : Environment) (world : World) :
    (x >>= f) env world =
      match x env world with
      | (.ok a, world) => f a env world
      | (.error e, world) => (.error e, world) := rfl

theorem bind_eq_ok_iff {x : Action α} {f : α → Action β} {env : Environment} {world after : World}
    {b : β} :
    (x >>= f) env world = (.ok b, after) ↔
      ∃ a between, x env world = (.ok a, between) ∧ f a env between = (.ok b, after) := by
  rw [bind_apply]
  rcases x env world with ⟨_ | a, between⟩ <;> simp [and_assoc]

theorem bind_eq_error_iff {x : Action α} {f : α → Action β} {env : Environment}
    {world after : World} {e : Error} :
    (x >>= f) env world = (.error e, after) ↔
      x env world = (.error e, after) ∨
        ∃ a between, x env world = (.ok a, between) ∧ f a env between = (.error e, after) := by
  rw [bind_apply]
  rcases x env world with ⟨_ | a, between⟩ <;> simp [and_assoc]

instance : LawfulMonad Action := .mk' _
  (fun x => by
    funext env world
    show Action.bind x _ env world = _
    unfold Action.bind
    rcases x env world with ⟨_ | a, between⟩ <;> rfl)
  (fun _ _ => rfl)
  (fun x f g => by
    funext env world
    simp only [bind_apply]
    rcases x env world with ⟨_ | a, between⟩ <;> rfl)

def ofExcept (x : Except Error α) : Action α := fun _ world => (x, world)

instance : MonadLift (Except Error) Action := ⟨ofExcept⟩

def fail (e : Error) : Action α := ofExcept (.error e)

def ofInquiry (x : Inquiry α) : Action α := fun env world =>
  let (result, journal) := x env world.stores world.journal
  (result, { world with journal })

instance : MonadLift Inquiry Action := ⟨ofInquiry⟩

def change (f : Stores → Stores) : Action Unit := fun _ world =>
  (.ok (), { world with stores := f world.stores })

def put (e : Exchange) : Action Unit := do
  Inquiry.call (.put e)
  change (·.put e)

-- Only a record that is already there can be replaced.
def replace (e : Exchange) : Action Unit := do
  let _ ← Inquiry.record e.id
  put e

def saveMessage (exchange : String) (party : Party) (m : Message) : Action Unit := do
  Inquiry.call (.saveMessage exchange party m)
  change (·.putMessage ⟨exchange, m.type, some party, m.toJson⟩)

-- Publishing is recorded like a call but cannot fail.
def publish (event : Event) : Action Unit := fun _ world =>
  (.ok (), {
    stores := world.stores.publish event
    journal := { world.journal with calls := world.journal.calls ++ [.publish event] } })

def send (m : Message) (connection : Connection) : Action Unit := do
  Inquiry.call (.send m connection)

end Action

-- What an operation is about to write: the record, still in its old state, with all else that
-- changes in it, the state it moves to, or none for a new record, and the message of the step.
structure Change where
  record : Exchange
  next : Option State
  party : Party
  message : Message
  deriving DecidableEq

namespace Change

def opening (record : Exchange) (party : Party) (message : Message) : Change :=
  ⟨record, none, party, message⟩

def moving (record : Exchange) (next : State) (party : Party) (message : Message) : Change :=
  ⟨record, some next, party, message⟩

-- Carries out a change and gives the record as it is stored.
def commit (c : Change) : Action Exchange := do
  Action.saveMessage c.record.id c.party c.message
  match c.next with
  | none =>
    Action.put c.record
    Action.publish (.created c.record)
    return c.record
  | some next =>
    let record ← c.record.advance next (← Inquiry.now)
    Action.replace record
    Action.publish (.transitioned record c.record.state)
    return record

end Change

end CredentialIssuance
