import CredentialIssuance.Agent.Command
import CredentialIssuance.Proofs.Dispatch
import CredentialIssuance.Proofs.Run

namespace CredentialIssuance

-- What an agent does. Whatever a deed does to the stores it does by operations, and only the first
-- operation of a deed can open a record.
inductive Deed where
  | operate (version : Version) (operation : Operation)
  | obey (version : Version) (command : Command)
  | dispatch (inbound : Inbound)
  -- As `dispatch`, from the text of the message to the sending of the response.
  | receive (text : String) (connection : Option Connection)

def Deed.perform (env : Environment) (world : World) : Deed → World
  | .operate version operation => (operation.run version env world).2
  | .obey version command => (command.run version env world).2
  | .dispatch inbound => (inbound.dispatch env world).2
  | .receive text connection => (receiveText text connection env world).2

-- A deed that fails does not end a life.
def Environment.live (env : Environment) : World → List Deed → World
  | world, [] => world
  | world, deed :: rest => env.live (deed.perform env world) rest

-- A message that has been read from a text.
def Inbound.Decoded (i : Inbound) : Prop := ∃ text, Message.decode text = .ok i.message

theorem Inbound.decode_ok {text : String} {connection : Option Connection} {inbound : Inbound}
    (h : decode text connection = .ok inbound) : inbound.Decoded := by
  cases hread : Message.decode text with
  | error x =>
    rw [decode, hread] at h
    cases h
  | ok message =>
    rw [decode, hread] at h
    cases h
    exact ⟨text, hread⟩

-- A message that is taken in has been read, and goes to the operation of its kind and family.
def Operation.Routed (version : Version) : Operation → Prop
  | .receive kind inbound =>
    inbound.message.kind = kind ∧ inbound.message.version = version ∧ inbound.Decoded
  | _ => True

def Deed.Routed : Deed → Prop
  | .operate version operation => operation.Routed version
  | .dispatch inbound => inbound.Decoded
  | .obey .. | .receive .. => True

-- As `Routed`, for a message that may have come about in any way.
def Operation.Addressed (version : Version) : Operation → Prop
  | .receive kind inbound => inbound.message.kind = kind ∧ inbound.message.version = version
  | _ => True

def Deed.Addressed : Deed → Prop
  | .operate version operation => operation.Addressed version
  | .obey .. | .dispatch .. | .receive .. => True

theorem Operation.Routed.of_sends {version : Version} {operation : Operation}
    (own : operation.party = .sender) : operation.Routed version := by
  cases operation with
  | receive kind inbound => cases own
  | _ => trivial

theorem Operation.Routed.addressed {version : Version} {operation : Operation}
    (routed : operation.Routed version) : operation.Addressed version := by
  cases operation with
  | receive kind inbound => exact ⟨routed.1, routed.2.1⟩
  | _ => trivial

theorem Operation.Addressed.kind {version : Version} {operation : Operation} {m : Message}
    (addressed : operation.Addressed version) (carries : operation.Carries m) :
    m.kind = operation.kind := by
  cases operation with
  | receive kind inbound =>
    cases carries
    exact addressed.1
  | _ => exact carries

-- The identifiers that come next are not in use.
structure World.Fresh (env : Environment) (w : World) : Prop where
  exchange : ∀ e ∈ w.stores.records.entries, e.id ≠ env.exchangeName w.journal.exchanges
  thread : ∀ e ∈ w.stores.records.entries, e.threadId ≠ env.threadName w.journal.threads

instance (env : Environment) (w : World) : Decidable (w.Fresh env) :=
  decidable_of_iff
    ((∀ e ∈ w.stores.records.entries, e.id ≠ env.exchangeName w.journal.exchanges) ∧
      ∀ e ∈ w.stores.records.entries, e.threadId ≠ env.threadName w.journal.threads)
    ⟨fun h => ⟨h.1, h.2⟩, fun h => ⟨h.exchange, h.thread⟩⟩

-- No identifier that is drawn in the course of a life is already in use.
def Environment.Fresh (env : Environment) : World → List Deed → Prop
  | world, [] => world.Fresh env
  | world, deed :: rest => world.Fresh env ∧ env.Fresh (deed.perform env world) rest

instance Environment.decidableFresh (env : Environment) :
    (world : World) → (deeds : List Deed) → Decidable (env.Fresh world deeds)
  | world, [] => inferInstanceAs (Decidable (world.Fresh env))
  | world, deed :: rest =>
    haveI := Environment.decidableFresh env (deed.perform env world) rest
    inferInstanceAs (Decidable (_ ∧ _))

-- An agent that only asks and sends leaves its stores as they are.
structure Rested (env : Environment) (before after : World) : Prop
    extends Unwritten env before after where
  messages : after.stores.messages = before.stores.messages
  caches : before.journal.Caches env after.journal

-- Whether it succeeds or fails, the action only asks and sends.
def Action.Rests {α : Type} (x : Action α) : Prop :=
  ∀ env world, Rested env world (x env world).2

section Rests

variable {α β : Type} {env : Environment} {world : World}

theorem Rested.refl (env : Environment) (world : World) : Rested env world world :=
  ⟨⟨rfl, rfl, rfl, Nat.le_refl _, Nat.le_refl _⟩, rfl, .refl env world.journal⟩

theorem Rested.trans {a b c : World} (first : Rested env a b) (second : Rested env b c) :
    Rested env a c where
  records := second.records.trans first.records
  events := second.events.trans first.events
  puts := second.puts.trans first.puts
  threads := Nat.le_trans first.threads second.threads
  exchanges := Nat.le_trans first.exchanges second.exchanges
  messages := second.messages.trans first.messages
  caches := first.caches.trans second.caches

theorem Rested.of_extends {journal : Journal} (h : world.journal.Extends env journal) :
    Rested env world ⟨world.stores, journal⟩ :=
  ⟨⟨rfl, rfl, h.puts, h.threads, h.exchanges⟩, rfl, h.caches⟩

namespace Action

-- What is done after an action, if it succeeds, does not touch the stores any more.
theorem bind_rested (x : Action α) {f : α → Action β} (hf : ∀ a, (f a).Rests) :
    Rested env (x env world).2 ((x >>= f) env world).2 := by
  rw [bind_apply]
  cases hx : x env world with
  | mk result between =>
    cases result with
    | error e => exact .refl env between
    | ok a => exact hf a env between

namespace Rests

theorem pure (a : α) : (pure a : Action α).Rests := fun env world => .refl env world

theorem bind {x : Action α} {f : α → Action β} (hx : x.Rests) (hf : ∀ a, (f a).Rests) :
    (x >>= f).Rests :=
  fun env world => (hx env world).trans (bind_rested x hf)

theorem lift {x : Inquiry α} (hx : x.Reads) : (liftM x : Action α).Rests :=
  fun env world => .of_extends (hx env world.stores world.journal)

theorem send (m : Message) (connection : Connection) : (send m connection).Rests := by
  intro env world
  have hputs : (world.journal.asked (.send m connection)).puts env = world.journal.puts env := by
    simp [Journal.puts_asked, Journal.storedBy]
  exact ⟨⟨rfl, rfl, hputs, Nat.le_refl _, Nat.le_refl _⟩, rfl, .refl env world.journal⟩

theorem sendOver (m : Message) (connection : String) : (sendOver m connection).Rests :=
  bind (lift (.call rfl)) fun _ => send m _

end Rests

end Action

theorem address_reads (inbound : Inbound) (e : Exchange) : (address inbound e).Reads := by
  unfold address
  split
  · exact .pure _
  · exact .call rfl

end Rests

namespace Deed

-- The operations that a deed may carry out. Those that take in a message are of the kind and family
-- of the message, unless the operation is called alone.
inductive Does : Deed → Version → Operation → Prop where
  | operate {version : Version} {operation : Operation} :
      Does (.operate version operation) version operation
  | obey {version : Version} {command : Command} {operation : Operation}
      (own : operation.party = .sender) : Does (.obey version command) version operation
  | process {inbound : Inbound} :
      Does (.dispatch inbound) inbound.message.version (.receive inbound.message.kind inbound)
  | answer {inbound : Inbound} {operation : Operation} (own : operation.party = .sender) :
      Does (.dispatch inbound) inbound.message.version operation
  | receive {text : String} {connection : Option Connection} {inbound : Inbound} {version : Version}
      {operation : Operation} (decoded : Inbound.decode text connection = .ok inbound)
      (does : Does (.dispatch inbound) version operation) :
      Does (.receive text connection) version operation

theorem Does.routed {deed : Deed} {version : Version} {operation : Operation}
    (does : deed.Does version operation) (routed : deed.Routed) : operation.Routed version := by
  have hdispatch : ∀ {inbound : Inbound}, inbound.Decoded →
      (Deed.dispatch inbound).Does version operation → operation.Routed version := by
    intro inbound decoded does
    cases does with
    | process => exact ⟨rfl, rfl, decoded⟩
    | answer own => exact .of_sends own
  cases does with
  | operate => exact routed
  | obey own | answer own => exact .of_sends own
  | process => exact hdispatch routed .process
  | receive decoded does => exact hdispatch (Inbound.decode_ok decoded) does

theorem Does.addressed {deed : Deed} {version : Version} {operation : Operation}
    (does : deed.Does version operation) (addressed : deed.Addressed) :
    operation.Addressed version := by
  cases does with
  | operate => exact addressed
  | obey own | answer own => exact (Operation.Routed.of_sends own).addressed
  | process => exact ⟨rfl, rfl⟩
  | receive decoded does =>
    cases does with
    | process => exact ⟨rfl, rfl⟩
    | answer own => exact (Operation.Routed.of_sends own).addressed

section Perform

variable {env : Environment} {world : World} {P : World → Prop}
  (rest : ∀ before after, P before → Rested env before after → P after)

include rest in
-- What a command does, it does by one operation of its own, which comes first.
theorem command_induction {version : Version} {command : Command}
    (step : ∀ operation : Operation, operation.party = .sender →
      P (operation.run version env world).2) (h : P world) :
    P (command.run version env world).2 := by
  have hdeliver : ∀ operation : Operation, operation.party = .sender →
      P (deliver version operation env world).2 := by
    intro operation own
    refine rest _ _ (step operation own) (Action.bind_rested _ fun outcome => ?_)
    exact .bind (.sendOver _ _) fun _ => .pure _
  have hstored : ∀ exchange (operation : Operation), operation.party = .sender →
      P (deliverStored version exchange operation env world).2 := by
    intro exchange operation own
    refine rest _ _ (step operation own) (Action.bind_rested _ fun outcome => ?_)
    exact .bind (.lift (.record exchange)) fun _ => .bind (.sendOver _ _) fun _ => .pure _
  cases command with
  | propose connection proposal autoAccept => exact hdeliver _ rfl
  | offer connection definition details autoAccept =>
    cases connection with
    | none => exact h
    | some connection => exact hdeliver _ rfl
  | answerProposal exchange definition details autoAccept => exact hdeliver _ rfl
  | acceptOffer exchange did autoAccept => exact hstored exchange _ rfl
  | declineOffer exchange reason => exact hstored exchange _ rfl
  | acceptRequest exchange comment autoAccept => exact hstored exchange _ rfl
  | acceptCredential exchange => exact hstored exchange _ rfl

include rest in
-- A dispatch processes the message and may then carry out an operation on the record of the
-- message.
theorem dispatch_induction {inbound : Inbound}
    (process : P ((Operation.receive inbound.message.kind inbound).run inbound.message.version env
      world).2)
    (answer : ∀ outcome between (operation : Operation),
      (Operation.receive inbound.message.kind inbound).run inbound.message.version env world =
        (.ok outcome, between) → operation.party = .sender →
      operation.exchange? = some outcome.record.id → P between →
        P (operation.run inbound.message.version env between).2) :
    P (inbound.dispatch env world).2 := by
  have hdispatched := inbound.dispatch_cases env world
  generalize inbound.dispatch env world = result at hdispatched
  have hanswer : ∀ {outcome : Outcome} {between : World} {operation : Operation},
      (Operation.receive inbound.message.kind inbound).run inbound.message.version env world =
        (.ok outcome, between) →
      followUp? env.config.autoAccept inbound.message.kind outcome.record = some operation →
        P (operation.run inbound.message.version env between).2 := by
    intro outcome between operation received follows
    rw [received] at process
    exact answer outcome between operation received (followUp?_sends follows).1
      (followUp?_named follows) process
  have haddress : ∀ {after : World} {e : Exchange} {result : Except Error Connection}
      {journal : Journal}, P after →
      address inbound e env after.stores after.journal = (result, journal) →
        P ⟨after.stores, journal⟩ := by
    intro after e result journal hafter addressed
    have hextends := address_reads inbound e env after.stores after.journal
    rw [addressed] at hextends
    exact rest _ _ hafter (.of_extends hextends)
  cases hdispatched with
  | refused received =>
    rw [received] at process
    exact process
  | silent received follows =>
    rw [received] at process
    exact process
  | unanswered received follows answered =>
    have hafter := hanswer received follows
    rw [answered] at hafter
    exact hafter
  | unaddressed received follows answered addressed =>
    have hafter := hanswer received follows
    rw [answered] at hafter
    exact haddress hafter addressed
  | answered received follows answered addressed =>
    have hafter := hanswer received follows
    rw [answered] at hafter
    exact haddress hafter addressed

include rest in
-- What every operation of a deed keeps, the deed keeps. An operation that names no record is
-- carried out in the world in which the deed begins.
theorem perform_induction {deed : Deed}
    (step : ∀ between version (operation : Operation), deed.Does version operation →
      (operation.exchange? = none → between = world) → P between →
        P (operation.run version env between).2) (h : P world) :
    P (deed.perform env world) := by
  have hdispatch : ∀ inbound, (∀ version operation, Does (.dispatch inbound) version operation →
      deed.Does version operation) → P (inbound.dispatch env world).2 := by
    intro inbound does
    refine dispatch_induction rest (step world _ _ (does _ _ .process) (fun _ => rfl) h) ?_
    intro outcome between operation _ own named hbetween
    refine step between _ operation (does _ _ (.answer own)) (fun hnone => ?_) hbetween
    cases hnone.symm.trans named
  cases deed with
  | operate version operation => exact step world version operation .operate (fun _ => rfl) h
  | obey version command =>
    refine command_induction rest ?_ h
    intro operation own
    exact step world version operation (.obey own) (fun _ => rfl) h
  | dispatch inbound => exact hdispatch inbound fun _ _ does => does
  | receive text connection =>
    have hresult : P (dispatchText text connection env world).2 := by
      show P (Action.bind (Action.ofExcept (Inbound.decode text connection)) _ env world).2
      unfold Action.bind Action.ofExcept
      cases hdecode : Inbound.decode text connection with
      | error e => exact h
      | ok inbound => exact hdispatch inbound fun _ _ does => .receive hdecode does
    refine rest _ _ hresult (Action.bind_rested _ fun outbound => ?_)
    cases outbound with
    | none => exact .pure _
    | some outbound => exact .bind (.send _ _) fun _ => .pure _

end Perform

end Deed

namespace Environment

variable {env : Environment} {world : World} {deeds : List Deed} {P : World → Prop}

-- What every deed keeps, a life keeps.
theorem live_induction
    (step : ∀ between, ∀ deed ∈ deeds, P between → P (deed.perform env between)) (h : P world) :
    P (env.live world deeds) := by
  induction deeds generalizing world with
  | nil => exact h
  | cons deed rest ih =>
    refine ih ?_ (step world deed List.mem_cons_self h)
    intro between later hlater
    exact step between later (List.mem_cons_of_mem deed hlater)

-- As `live_induction`, where every deed begins with fresh identifiers.
theorem live_induction_fresh (fresh : env.Fresh world deeds)
    (step : ∀ between deed, between.Fresh env → P between → P (Deed.perform env between deed))
    (h : P world) : P (env.live world deeds) := by
  induction deeds generalizing world with
  | nil => exact h
  | cons deed rest ih => exact ih fresh.2 (step world deed fresh.1 h)

theorem Fresh.live (fresh : env.Fresh world deeds) : (env.live world deeds).Fresh env := by
  induction deeds generalizing world with
  | nil => exact fresh
  | cons deed rest ih => exact ih fresh.2

end Environment

section Arrivals

-- Messages of which nothing matters but the thread, and their arrival over a complete connection.

def Message.openingProposal (thread : String) : Message :=
  Version.v1.propose (.opening thread) .blank

def Message.openingOffer (thread : String) : Message :=
  let payload := Json.object [("schema_id", .str "schema"), ("cred_def_id", .str "definition")]
  Version.v1.offer (.opening thread) payload.text .blank

def Message.reportOn (thread : String) : Message :=
  Version.v1.problemReport (.reply "report" thread) "code" "text"

def Connection.complete (id : String) : Connection := ⟨id, "did", "their-did", .complete⟩

def Deed.arriving (m : Message) (connection : String) : Deed :=
  .operate m.version (.receive m.kind ⟨m, some (.complete connection)⟩)

end Arrivals

end CredentialIssuance
