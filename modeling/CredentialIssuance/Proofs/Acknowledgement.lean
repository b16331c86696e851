import CredentialIssuance.Proofs.Life
import CredentialIssuance.Proofs.Script

namespace CredentialIssuance

-- An acknowledgement that has arrived for the record is stored, whatever its status is.
def Stores.Acknowledged (s : Stores) (e : Exchange) : Prop :=
  ∃ m : Message, m.threadId = e.threadId ∧ (∃ status, m.body = .ack e.version status) ∧
    s.messages.get? (e.id, typeUri e.version .ack) =
      some ⟨e.id, typeUri e.version .ack, some .receiver, m.toJson⟩

theorem Message.exists_status {m : Message} (h : m.kind = .ack) :
    ∃ status, m.body = .ack m.version status := by
  obtain ⟨header, body⟩ := m
  cases body with
  | ack version status => exact ⟨status, rfl⟩
  | _ => cases h

-- Only an acknowledgement that arrives completes the exchange of an issuer.
theorem Transition.acknowledged {party : Party} {kind : Kind} {previous : Option State}
    (h : Transition .issuer party kind previous .done) : party = .receiver ∧ kind = .ack := by
  cases h
  exact ⟨rfl, rfl⟩

section Finished

variable {env : Environment} {before after : World} {version : Version} {operation : Operation}
  {outcome : Outcome} {e : Exchange}

-- An operation is planned for a record that is open, or for a new one.
theorem Planned.id_ne {journal : Journal} {c : Change}
    (h : Planned env before.stores before.journal journal version operation c)
    (names : Function.Injective env.exchangeName) (named : before.Named env)
    (he : e ∈ before.stores.records.entries) (finished : e.state.isTerminal = true) :
    c.record.id ≠ e.id := by
  intro hsame
  have hstored := Stores.record?_eq_some_iff.2 ⟨he, rfl⟩
  cases hnext : c.next with
  | none =>
    rw [← hsame, (h.opens hnext).id, named.fresh names] at hstored
    cases hstored
  | some next =>
    obtain ⟨old, hold, -, hstate, -⟩ := (h.moves next hnext).stored
    have htransition := h.transition
    rw [Change.previous, hnext, Option.map_some] at htransition
    have hopen := htransition.rises.1
    rw [hsame, hstored] at hold
    cases hold
    rw [hstate, hopen] at finished
    cases finished

-- So the messages of a finished record stay as they are.
theorem Operation.run_finished (names : Function.Injective env.exchangeName)
    (named : before.Named env) (he : e ∈ before.stores.records.entries)
    (finished : e.state.isTerminal = true) (version : Version) (operation : Operation)
    (type : String) :
    (operation.run version env before).2.stores.messages.get? (e.id, type) =
      before.stores.messages.get? (e.id, type) := by
  refine run_spares fun c journal hplan hkey => ?_
  have hother := (plan_ok hplan).id_ne names named he finished
  exact hother (congrArg Prod.fst hkey)

-- The step that completes an issuer's record stores the acknowledgement.
theorem Step.acknowledged (h : Step env before after version operation outcome previous)
    (hrun : operation.run version env before = (.ok outcome, after))
    (issuer : outcome.record.role = .issuer) (done : outcome.record.state = .done) :
    after.stores.Acknowledged outcome.record := by
  have htransition := h.transition
  rw [issuer, done] at htransition
  obtain ⟨hparty, hkind⟩ := htransition.acknowledged
  cases operation with
  | receive kind inbound =>
    cases hkind
    obtain ⟨c, journal, hplan, -, -⟩ := Operation.run_eq_ok hrun
    obtain ⟨hack, hversion, -⟩ := Issuer.receiveAck_ok hplan
    have hmessage : outcome.message = inbound.message := h.carries
    rw [← hmessage] at hack hversion
    have hfamily : outcome.message.version = outcome.record.version := hversion.trans h.version.symm
    have htype : outcome.message.type = typeUri outcome.record.version .ack := by
      rw [Message.type, hack, hfamily]
    refine ⟨outcome.message, h.thread, ?_, ?_⟩
    · rw [← hfamily]
      exact Message.exists_status hack
    · rw [h.messages, htype, hparty, Table.get?_put]
      exact if_pos rfl
  | _ => cases hparty

end Finished

-- Every issuer's record that is done has been acknowledged.
structure World.Acknowledged (env : Environment) (w : World) : Prop where
  named : w.Named env
  acknowledged : ∀ e ∈ w.stores.records.entries, e.role = .issuer → e.state = .done →
    w.stores.Acknowledged e

namespace World.Acknowledged

variable {env : Environment} {w after : World}

theorem empty (env : Environment) : World.empty.Acknowledged env where
  named := .empty env
  acknowledged := by
    intro e he
    cases he

theorem rested (h : w.Acknowledged env) (hrested : Rested env w after) : after.Acknowledged env where
  named := hrested.named h.named
  acknowledged := by
    intro e he
    rw [hrested.records] at he
    unfold Stores.Acknowledged
    rw [hrested.messages]
    exact h.acknowledged e he

theorem run (h : w.Acknowledged env) (names : Function.Injective env.exchangeName)
    (version : Version) (operation : Operation) :
    (operation.run version env w).2.Acknowledged env where
  named := h.named.step version operation
  acknowledged := by
    intro e he issuer done
    -- What has been there before, and is done, is still there with its messages.
    have hstays : e ∈ w.stores.records.entries →
        (operation.run version env w).2.stores.Acknowledged e := by
      intro hold
      have finished : e.state.isTerminal = true := by
        rw [done]
        rfl
      obtain ⟨m, hthread, hbody, hstored⟩ := h.acknowledged e hold issuer done
      refine ⟨m, hthread, hbody, ?_⟩
      rw [Operation.run_finished names h.named hold finished]
      exact hstored
    cases hrun : operation.run version env w with
    | mk result after =>
      rw [hrun] at he hstays
      cases result with
      | error x =>
        rw [(Operation.run_error hrun).records] at he
        exact hstays he
      | ok outcome =>
        obtain ⟨previous, hstep⟩ := Operation.run_ok hrun
        rw [hstep.records, Table.mem_put_iff] at he
        rcases he with rfl | ⟨hold, -⟩
        · exact hstep.acknowledged hrun issuer done
        · exact hstays hold

theorem live (names : Function.Injective env.exchangeName) (deeds : List Deed) :
    (env.live World.empty deeds).Acknowledged env := by
  refine Environment.live_induction (fun between deed _ hbetween => ?_) (.empty env)
  refine Deed.perform_induction (fun _ _ h hrested => h.rested hrested) ?_ hbetween
  intro between version operation _ _ h
  exact h.run names version operation

end World.Acknowledged

-- Nothing is planned by the status of an acknowledgement.
theorem Issuer.receiveAck_congr (version : Version) (header : Header) (connection : Option Connection)
    (status status' : AckStatus) :
    receiveAck version ⟨⟨header, .ack version status'⟩, connection⟩ =
      (fun change => { change with message := ⟨header, .ack version status'⟩ }) <$>
        receiveAck version ⟨⟨header, .ack version status⟩, connection⟩ := by
  have hkind (status : AckStatus) :
      ¬ ((Message.mk header (.ack version status)).kind ≠ .ack ∨
        (Message.mk header (.ack version status)).version ≠ version) := by
    simp [Message.kind, Message.version, Body.kind, Body.version]
  simp only [receiveAck, if_neg (hkind _), map_bind, map_pure]
  rfl

namespace Environment

-- The messages may have come from anyone. No status is promised, and none is asked for.
theorem live_acknowledged {env : Environment} (names : Function.Injective env.exchangeName)
    (deeds : List Deed) :
    (∀ e ∈ (env.live World.empty deeds).stores.records.entries, e.role = .issuer →
      e.state = .done → (env.live World.empty deeds).stores.Acknowledged e) ∧
    ∀ version header connection status status',
      (Operation.receive .ack ⟨⟨header, .ack version status'⟩, connection⟩).plan version =
        (fun change => { change with message := ⟨header, .ack version status'⟩ }) <$>
          (Operation.receive .ack ⟨⟨header, .ack version status⟩, connection⟩).plan version :=
  ⟨(World.Acknowledged.live names deeds).acknowledged,
    fun version header connection status status' =>
      Issuer.receiveAck_congr version header connection status status'⟩

-- An offer, the request for it, which is answered with a credential, and an acknowledgement.
def acknowledging (status : AckStatus) : List Deed :=
  let request := Version.v1.request (.reply "request" "a") "request" (.openingOffer "a")
  [.obey .v1 (.offer (some "connection") "definition" .blank none),
    .dispatch ⟨request, some (.complete "connection")⟩,
    .dispatch ⟨⟨.reply "ack" "a", .ack .v1 status⟩, some (.complete "connection")⟩]

theorem live_acknowledged_issued :
    let world := (prompt 'a').live World.empty (acknowledging .ok)
    ∃ e ∈ world.stores.records.entries, e.state = .done ∧ world.stores.Acknowledged e := by
  have hdone : ∃ e ∈ ((prompt 'a').live World.empty (acknowledging .ok)).stores.records.entries,
      e.role = .issuer ∧ e.state = .done := by decide +kernel
  have names : Function.Injective (prompt 'a').exchangeName := steady_fresh 'a'
  have hacknowledged := (live_acknowledged names (acknowledging .ok)).1
  generalize (prompt 'a').live World.empty (acknowledging .ok) = world at hdone hacknowledged ⊢
  obtain ⟨e, he, hrole, hstate⟩ := hdone
  exact ⟨e, he, hstate, hacknowledged e he hrole hstate⟩

-- The exchange is completed though the holder says that the credential could not be stored, or that
-- it is not stored yet.
theorem live_acknowledged_failed :
    let failed := ((prompt 'a').live World.empty (acknowledging .fail)).stores
    let pending := ((prompt 'a').live World.empty (acknowledging .pending)).stores
    (∃ e ∈ failed.records.entries, e.role = .issuer ∧ e.state = .done ∧
      failed.message? e.id (typeUri e.version .ack) =
        some (Message.mk (.reply "ack" "a") (.ack .v1 .fail)).toJson) ∧
    ∃ e ∈ pending.records.entries, e.role = .issuer ∧ e.state = .done ∧
      pending.message? e.id (typeUri e.version .ack) =
        some (Message.mk (.reply "ack" "a") (.ack .v1 .pending)).toJson := by
  decide +kernel

end Environment

end CredentialIssuance
