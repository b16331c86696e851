import CredentialIssuance.Proofs.Life

namespace CredentialIssuance

-- What is wrong with a message that is not of the family and kind.
def Kind.refusal (kind : Kind) (version : Version) (m : Message) : Fault :=
  match kind with
  | .propose => .wrongProposal version m.type
  | .ack => .wrongAck version m.type
  | kind => .wrongMessage version kind m.type

theorem Inquiry.lift_bind_error {α β : Type} {x : Except Error α} {f : α → Inquiry β} {y : Error}
    {env : Environment} {stores : Stores} {journal : Journal} (h : x = .error y) :
    ((liftM x : Inquiry α) >>= f) env stores journal = (.error y, journal) := by
  rw [h]
  rfl

theorem Version.payload_of_foreign {version : Version} {kind : Kind} {m : Message}
    (foreign : ¬ (m.kind = kind ∧ m.version = version)) :
    version.payload m kind = .error (.invalidMessage (.wrongMessage version kind m.type)) := by
  unfold payload
  rw [if_neg]
  rintro ⟨hversion, hkind⟩
  exact foreign ⟨hkind, hversion⟩

-- Reports and refusals decline, and nothing else does.
theorem Transition.declined_iff {role : Role} {party : Party} {kind : Kind} {previous : Option State}
    {next : State} (h : Transition role party kind previous next) :
    next = .declined ↔ kind = .problemReport := by
  cases h <;> simp

-- All that is read of a report is the thread it is on and its comment.
theorem receiveReport_congr (version : Version) {inbound : Inbound} {m : Message}
    (hthread : m.threadId = inbound.message.threadId)
    (hcomment : m.comment = inbound.message.comment) :
    receiveReport version { inbound with message := m } =
      (fun change => { change with message := m }) <$> receiveReport version inbound := by
  simp only [receiveReport, map_bind, map_pure, hthread, hcomment, Inbound.connectionId]
  rfl

namespace Operation

variable {env : Environment} {world after : World} {version : Version} {kind : Kind}
  {inbound : Inbound}

-- The look at the kind and the family comes first.
theorem plan_refuses {stores : Stores} {journal : Journal} (guarded : kind ≠ .problemReport)
    (foreign : ¬ (inbound.message.kind = kind ∧ inbound.message.version = version)) :
    (receive kind inbound).plan version env stores journal =
      (.error (.invalidMessage (kind.refusal version inbound.message)), journal) := by
  have hpayload := Version.payload_of_foreign foreign
  have hforeign := not_and_or.1 foreign
  cases kind with
  | propose =>
    simp only [plan, Issuer.receiveProposal]
    rw [if_pos hforeign]
    rfl
  | ack =>
    simp only [plan, Issuer.receiveAck]
    rw [if_pos hforeign]
    rfl
  | offer => exact Inquiry.lift_bind_error hpayload
  | request => exact Inquiry.lift_bind_error hpayload
  | issue => exact Inquiry.lift_bind_error hpayload
  | problemReport => exact absurd rfl guarded

theorem run_refuses (guarded : kind ≠ .problemReport)
    (foreign : ¬ (inbound.message.kind = kind ∧ inbound.message.version = version)) :
    (receive kind inbound).run version env world =
      (.error (.invalidMessage (kind.refusal version inbound.message)), world) := by
  unfold run
  rw [Action.lift_bind_apply, plan_refuses guarded foreign]

-- What is refused leaves no trace. A report is planned whatever it is: a message with the same
-- thread and comment does the same in its place. So only reports and refusals decline, each a
-- record of its own family, but what is stored of a report, and what it replaces, is of the type
-- that it came as.
theorem receive_admits (env : Environment) (world : World) (version : Version) :
    (∀ kind inbound, kind ≠ .problemReport →
      ¬ (inbound.message.kind = kind ∧ inbound.message.version = version) →
        (receive kind inbound).run version env world =
          (.error (.invalidMessage (kind.refusal version inbound.message)), world)) ∧
    (∀ inbound m, m.threadId = inbound.message.threadId → m.comment = inbound.message.comment →
      (receive .problemReport { inbound with message := m }).plan version =
        (fun change => { change with message := m }) <$>
          (receive .problemReport inbound).plan version) ∧
    ∀ (operation : Operation) outcome after,
      operation.run version env world = (.ok outcome, after) →
        (outcome.record.state = .declined ↔ operation.kind = .problemReport) ∧
        outcome.record.version = version ∧
        ∀ key, key ≠ (outcome.record.id, outcome.message.type) →
          after.stores.messages.get? key = world.stores.messages.get? key := by
  refine ⟨fun kind inbound guarded foreign => run_refuses guarded foreign,
    fun inbound m hthread hcomment => receiveReport_congr version hthread hcomment, ?_⟩
  intro operation outcome after hrun
  obtain ⟨previous, hstep⟩ := run_ok hrun
  refine ⟨hstep.transition.declined_iff, hstep.version, ?_⟩
  intro key hkey
  rw [hstep.messages, Table.get?_put]
  exact if_neg (Ne.symm hkey)

-- An offer that is taken for a request.
theorem receive_admits_offer :
    let offer := Message.openingOffer "thread"
    (receive .request ⟨offer, none⟩).run .v1 (.steady 'a') World.empty =
      (.error (.invalidMessage (.wrongMessage .v1 .request offer.type)), World.empty) := by
  have hadmits := receive_admits (.steady 'a') World.empty .v1
  exact hadmits.1 .request ⟨.openingOffer "thread", none⟩ (by decide) (by decide)

-- An issuer's own offer, when it comes back as a report, declines the exchange it has opened and
-- takes the place of the offer that was sent.
theorem receive_declines_by_offer :
    let env := Environment.steady 'a'
    let (offered, world) :=
      (Operation.offer (some "connection") "definition" .blank none).run .v2 env World.empty
    ∃ offer e, offered = .ok ⟨offer, e⟩ ∧ offer.kind = .offer ∧ e.state = .offerSent ∧
      let (result, after) :=
        (receive .problemReport ⟨offer, some (.complete "connection")⟩).run .v2 env world
      (∃ outcome, result = .ok outcome) ∧
        (after.stores.record? e.id).map Exchange.state = some .declined ∧
        (world.stores.messages.get? (e.id, offer.type)).map StoredMessage.party =
          some (some .sender) ∧
        (after.stores.messages.get? (e.id, offer.type)).map StoredMessage.party =
          some (some .receiver) :=
  ⟨_, _, rfl, rfl, rfl, ⟨_, rfl⟩, rfl, rfl, rfl⟩

end Operation

end CredentialIssuance
