import CredentialIssuance.Proofs.Chronicle

namespace CredentialIssuance

-- The role that takes in messages of the kind. Reports are for both.
def Kind.reader : Kind → Option Role
  | .propose | .request | .ack => some .issuer
  | .offer | .issue => some .holder
  | .problemReport => none

-- Whether the record has taken the step to which messages of the kind lead that arrive like this
-- one.
structure Exchange.Took (e : Exchange) (kind : Kind) (inbound : Inbound) : Prop where
  thread : e.threadId = inbound.message.threadId
  role : kind.reader = some e.role
  rank : kind.rank ≤ e.state.rank
  -- The record that a proposal has opened may be bound once more, by the request.
  connection : kind ≠ .propose → ∀ c ∈ inbound.connectionId, e.connectionId = c

-- So has what the record turns into.
theorem Exchange.Took.onward {e e' : Exchange} {kind : Kind} {inbound : Inbound}
    (h : e.Took kind inbound) (later : e.Onward e') : e'.Took kind inbound where
  thread := later.origin.threadId.trans h.thread
  role := by rw [h.role, later.origin.role]
  rank := Nat.le_trans h.rank later.rank
  connection := by
    intro hkind c hc
    have hrole := h.role
    have hrank := h.rank
    have hbound : e.role = .holder ∨ 3 ≤ e.state.rank := by
      cases kind with
      | propose => exact absurd rfl hkind
      | offer | issue => exact .inl (Option.some.inj hrole).symm
      | request => exact .inr hrank
      | ack => exact .inr (Nat.le_trans (by decide) hrank)
      | problemReport => cases hrole
    exact (later.connection hbound).trans (h.connection hkind c hc)

theorem Inbound.connectionId_of_ready {inbound : Inbound} {c : Connection}
    (h : inbound.ready = .ok c) : inbound.connectionId = some c.id := by
  rw [connectionId, (ready_ok h).1]
  rfl

namespace Inquiry

variable {env : Environment} {stores : Stores} {journal after : Journal} {thread : String}
  {role : Option Role} {connection : Option String} {found : Option Exchange} {e : Exchange}

theorem onThread_eq (h : onThread thread role connection env stores journal = (.ok found, after))
    (hstored : stores.record? e.id = some e) (answers : e.Answers thread role connection) :
    found = some e := by
  obtain ⟨-, hselect, -⟩ := onThread_eq_ok_iff.1 h
  have he : e ∈ stores.records.entries := (stores.records.get?_eq_some_iff _ _).1 hstored |>.1
  exact select_eq hselect (Stores.mem_onThread.2 ⟨he, answers.1⟩) answers

-- The record that is bound to the connection comes first.
theorem bound_eq {c : String}
    (h : bound thread role (some c) env stores journal = (.ok found, after))
    (hstored : stores.record? e.id = some e) (answers : e.Answers thread role (some c)) :
    found = some e := by
  obtain ⟨_, _, hconfig, h⟩ := bind_eq_ok_iff.1 h
  cases hconfig
  obtain ⟨first, _, hfirst, h⟩ := bind_eq_ok_iff.1 h
  rw [onThread_eq hfirst hstored answers] at h
  exact (pure_eq_ok_iff.1 h).1.symm

end Inquiry

section Receive

variable {env : Environment} {stores : Stores} {journal after : Journal} {version : Version}
  {kind : Kind} {inbound : Inbound} {change : Change}

-- The record that takes in a message is bound to the connection that the message came over.
theorem Operation.plan_receive_connection (protocol : kind.reader.isSome = true)
    (h : (Operation.receive kind inbound).plan version env stores journal = (.ok change, after)) :
    ∀ c ∈ inbound.connectionId, change.record.connectionId = c := by
  have hready : ∀ {c : Connection}, inbound.ready = .ok c → ∀ id ∈ inbound.connectionId, c.id = id := by
    intro c ready id hid
    rw [Inbound.connectionId_of_ready ready] at hid
    exact Option.some.inj hid
  cases kind with
  | propose =>
    obtain ⟨-, -, connection, _, _, ready, -, -, rfl, -⟩ := Issuer.receiveProposal_ok h
    exact hready ready
  | offer =>
    obtain ⟨_, _, -, -, ⟨stored, -, hanswers, -, -, rfl⟩ | ⟨connection, _, ready, -, rfl, -⟩⟩ :=
      Holder.receiveOffer_ok h
    · exact hanswers.2.2
    · exact hready ready
  | request =>
    obtain ⟨_, connection, -, ready, ⟨stored, -, -, -, -, -, rfl⟩ | ⟨_, -, rfl, -⟩⟩ :=
      Issuer.receiveRequest_ok h
    · exact hready ready
    · exact hready ready
  | issue =>
    obtain ⟨stored, _, _, _, _, -, -, -, hanswers, -, -, -, rfl⟩ := Holder.receiveCredential_ok h
    exact hanswers.2.2
  | ack =>
    obtain ⟨-, -, stored, -, hanswers, -, -, rfl⟩ := Issuer.receiveAck_ok h
    exact hanswers.2.2
  | problemReport => cases protocol

-- What the record of a message that has been taken in is.
theorem Operation.run_receive_took {before after : World} {outcome : Outcome}
    (protocol : kind.reader.isSome = true)
    (h : (Operation.receive kind inbound).run version env before = (.ok outcome, after)) :
    outcome.record.Took kind inbound ∧ ∀ c ∈ inbound.connectionId, outcome.record.connectionId = c := by
  obtain ⟨c, journal, hplan, -, hreaches, hstep⟩ := run_planned h
  obtain ⟨updated, hrecord⟩ := hreaches.eq
  have hconnection : ∀ c ∈ inbound.connectionId, outcome.record.connectionId = c := by
    rw [hrecord]
    exact plan_receive_connection protocol hplan
  refine ⟨⟨?_, ?_, ?_, fun _ => hconnection⟩, hconnection⟩
  · rw [← hstep.thread, show outcome.message = inbound.message from hstep.carries]
  · have htransition := hstep.transition
    change Transition _ .receiver kind _ _ at htransition
    generalize outcome.record.role = role, c.previous = previous,
      outcome.record.state = state at htransition
    cases htransition with
    | receiveReport => cases protocol
    | _ => rfl
  · exact Nat.le_of_eq hstep.transition.rank_eq.symm

section Once

variable {e : Exchange} (hstored : stores.record? e.id = some e)

theorem Exchange.Took.answers (h : e.Took kind inbound) (other : kind ≠ .propose) :
    e.Answers inbound.message.threadId kind.reader inbound.connectionId :=
  ⟨h.thread, fun _ hrole => Option.some.inj (h.role.symm.trans hrole), h.connection other⟩

-- A record that has taken a step is not in a state that the step would leave.
theorem Exchange.Took.beyond (h : e.Took kind inbound) {state : State}
    (lower : state.rank < kind.rank) : e.assertState [state] ≠ .ok () := by
  intro hstate
  have hrank := h.rank
  rw [Exchange.assertState_ok hstate] at hrank
  omega

-- So it keeps the message from being taken in once more: the look-up finds no other record, and the
-- check of the state refuses this one.

include hstored in
theorem Issuer.receiveProposal_once (took : e.Took .propose inbound) :
    receiveProposal version inbound env stores journal ≠ (.ok change, after) := by
  intro h
  obtain ⟨-, -, _, _, _, -, -, hnone, -⟩ := receiveProposal_ok h
  have he := (Stores.record?_eq_some_iff.1 hstored).1
  exact hnone e he (Exchange.answers_of_role took.thread (Option.some.inj took.role).symm)

include hstored in
theorem Holder.receiveOffer_once (took : e.Took .offer inbound) :
    receiveOffer version inbound env stores journal ≠ (.ok change, after) := by
  intro h
  obtain ⟨_, _, h⟩ := Inquiry.lift_bind_ok h
  obtain ⟨_, _, h⟩ := Inquiry.lift_bind_ok h
  obtain ⟨found, _, hfound, h⟩ := Inquiry.bind_eq_ok_iff.1 h
  rw [Inquiry.onThread_eq hfound hstored (took.answers (by decide))] at h
  obtain ⟨_, _, h⟩ := Inquiry.lift_bind_ok h
  obtain ⟨_, hstate, _⟩ := Inquiry.lift_bind_ok h
  exact took.beyond (by decide) hstate

include hstored in
theorem Issuer.receiveRequest_once (took : e.Took .request inbound) :
    receiveRequest version inbound env stores journal ≠ (.ok change, after) := by
  intro h
  obtain ⟨_, _, h⟩ := Inquiry.lift_bind_ok h
  obtain ⟨connection, hready, h⟩ := Inquiry.lift_bind_ok h
  obtain ⟨found, _, hfound, h⟩ := Inquiry.bind_eq_ok_iff.1 h
  have hanswers := took.answers (by decide)
  rw [Inbound.connectionId_of_ready hready] at hanswers
  rw [Inquiry.bound_eq hfound hstored hanswers] at h
  obtain ⟨_, _, h⟩ := Inquiry.lift_bind_ok h
  obtain ⟨_, hstate, _⟩ := Inquiry.lift_bind_ok h
  exact took.beyond (by decide) hstate

include hstored in
theorem Holder.receiveCredential_once (took : e.Took .issue inbound) :
    receiveCredential version inbound env stores journal ≠ (.ok change, after) := by
  intro h
  obtain ⟨_, _, h⟩ := Inquiry.lift_bind_ok h
  obtain ⟨_, _, h⟩ := Inquiry.lift_bind_ok h
  obtain ⟨found, _, hfound, h⟩ := Inquiry.bind_eq_ok_iff.1 h
  obtain ⟨record, hrecord, h⟩ := Inquiry.require_bind_ok h
  rw [Inquiry.onThread_eq hfound hstored (took.answers (by decide))] at hrecord
  cases hrecord
  obtain ⟨_, _, h⟩ := Inquiry.lift_bind_ok h
  obtain ⟨_, hstate, _⟩ := Inquiry.lift_bind_ok h
  exact took.beyond (by decide) hstate

include hstored in
theorem Issuer.receiveAck_once (took : e.Took .ack inbound) :
    receiveAck version inbound env stores journal ≠ (.ok change, after) := by
  intro h
  simp only [receiveAck] at h
  split at h
  · exact Inquiry.fail_ne_ok h
  · obtain ⟨found, _, hfound, h⟩ := Inquiry.bind_eq_ok_iff.1 h
    obtain ⟨record, hrecord, h⟩ := Inquiry.require_bind_ok h
    rw [Inquiry.onThread_eq hfound hstored (took.answers (by decide))] at hrecord
    cases hrecord
    obtain ⟨_, _, h⟩ := Inquiry.lift_bind_ok h
    obtain ⟨_, hstate, _⟩ := Inquiry.lift_bind_ok h
    exact took.beyond (by decide) hstate

include hstored in
theorem Operation.plan_receive_once (took : e.Took kind inbound) :
    (Operation.receive kind inbound).plan version env stores journal ≠ (.ok change, after) := by
  cases kind with
  | propose => exact Issuer.receiveProposal_once hstored took
  | offer => exact Holder.receiveOffer_once hstored took
  | request => exact Issuer.receiveRequest_once hstored took
  | issue => exact Holder.receiveCredential_once hstored took
  | ack => exact Issuer.receiveAck_once hstored took
  | problemReport => cases took.role

end Once

-- The message is refused while it is only looked at, so nothing is written.
theorem Operation.run_receive_once {world : World} {e : Exchange}
    (hstored : world.stores.record? e.id = some e) (took : e.Took kind inbound) :
    ∃ x journal, (Operation.receive kind inbound).run version env world =
      (.error x, ⟨world.stores, journal⟩) := by
  cases hplan : (Operation.receive kind inbound).plan version env world.stores world.journal with
  | mk result journal =>
    cases result with
    | ok change => exact absurd hplan (plan_receive_once hstored took)
    | error x => exact ⟨x, journal, by rw [run, Action.lift_bind_apply, hplan]⟩

end Receive

namespace Chronicle

-- A message that has been taken in is refused ever after if it comes again in the same way,
-- whatever has happened since, and leaves all stores as they are.
theorem redelivered {env : Environment} {past : List Ran} {world : World}
    (names : Function.Injective env.exchangeName) (h : Chronicle env past world) {m : Message}
    (protocol : m.kind ≠ .problemReport) {connection : Option Connection} {outcome : Outcome}
    (processed : ⟨m.version, .receive m.kind ⟨m, connection⟩, .ok outcome⟩ ∈ past) :
    ∃ x journal, (Operation.receive m.kind ⟨m, connection⟩).run m.version env world =
      (.error x, ⟨world.stores, journal⟩) := by
  obtain ⟨before, after, hrun⟩ := h.exists_run processed rfl
  obtain ⟨e, he, honward⟩ := h.record_stays names processed rfl
  have hreader : m.kind.reader.isSome = true := by
    generalize m.kind = kind at protocol
    cases kind with
    | problemReport => exact absurd rfl protocol
    | _ => rfl
  have htook := (Operation.run_receive_took hreader hrun).1.onward honward
  rw [← honward.origin.id] at he
  exact Operation.run_receive_once he htook

-- An offer that comes again after it has been accepted.
theorem redelivered_offer :
    let env := Environment.steady 'a'
    let offer := Message.openingOffer "thread"
    let take := Operation.receive offer.kind ⟨offer, some (.complete "first")⟩
    ∃ past world, Chronicle env past world ∧
      past.map Ran.operation = [take, .request "e" none none] ∧
      ∃ x journal, take.run offer.version env world = (.error x, ⟨world.stores, journal⟩) := by
  intro env offer take
  have htaken : (take.run offer.version env World.empty).1.toBool = true := by decide +kernel
  cases hfirst : take.run offer.version env World.empty with
  | mk result between =>
    rw [hfirst] at htaken
    cases result with
    | error x => cases htaken
    | ok outcome =>
      have htook := Chronicle.opens.next hfirst
      cases hsecond : (Operation.request "e" none none).run offer.version env between with
      | mk result world =>
        have hlater := htook.next hsecond
        have hmem : ⟨offer.version, take, .ok outcome⟩ ∈ [⟨offer.version, take, .ok outcome⟩,
          (⟨offer.version, .request "e" none none, result⟩ : Ran)] := List.mem_cons_self
        have hagain := redelivered (Environment.steady_fresh 'a') hlater (m := offer) (by decide) hmem
        exact ⟨_, world, hlater, rfl, hagain⟩

end Chronicle

end CredentialIssuance
