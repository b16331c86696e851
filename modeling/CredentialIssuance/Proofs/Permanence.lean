import CredentialIssuance.Proofs.Backing
import CredentialIssuance.Proofs.Forward
import CredentialIssuance.Proofs.Isolation

namespace CredentialIssuance

-- How far the exchange has come with a message of the kind, in the ranks of the states.
def Kind.rank : Kind → Nat
  | .propose => 1
  | .offer => 2
  | .request => 3
  | .issue => 4
  | .ack | .problemReport => 5

theorem Transition.rank_eq {role : Role} {party : Party} {kind : Kind} {previous : Option State}
    {next : State} (h : Transition role party kind previous next) : next.rank = kind.rank := by
  cases h <;> rfl

-- What a record may turn into. Until it is requested, an issuer's may yet be bound to a connection.
structure Exchange.Onward (old new : Exchange) : Prop where
  origin : old.SameOrigin new
  rank : old.state.rank ≤ new.state.rank
  connection : old.role = .holder ∨ 3 ≤ old.state.rank → new.connectionId = old.connectionId

theorem Exchange.Onward.refl (e : Exchange) : e.Onward e :=
  ⟨⟨rfl, rfl, rfl, rfl, rfl, rfl⟩, Nat.le_refl _, fun _ => rfl⟩

theorem Exchange.Onward.trans {a b c : Exchange} (first : a.Onward b) (second : b.Onward c) :
    a.Onward c := by
  refine ⟨first.origin.trans second.origin, Nat.le_trans first.rank second.rank, ?_⟩
  intro hbound
  have hlater : b.role = .holder ∨ 3 ≤ b.state.rank :=
    hbound.imp first.origin.role.trans fun h => Nat.le_trans h first.rank
  exact (second.connection hlater).trans (first.connection hbound)

-- Whatever is stored before is stored after, or a record that it has turned into.
def World.Precedes (before after : World) : Prop :=
  ∀ e, before.stores.record? e.id = some e →
    ∃ e', after.stores.record? e.id = some e' ∧ e.Onward e'

-- The messages of the steps that a record has taken are the same before and after.
def World.Preserves (before after : World) : Prop :=
  ∀ e, before.stores.record? e.id = some e → ∀ kind : Kind, kind.rank ≤ e.state.rank →
    after.stores.message? e.id (typeUri e.version kind) =
      before.stores.message? e.id (typeUri e.version kind)

section Preorder

variable {env : Environment} {a b c : World}

theorem World.Precedes.refl (w : World) : w.Precedes w := fun e he => ⟨e, he, .refl e⟩

theorem World.Precedes.trans (first : a.Precedes b) (second : b.Precedes c) : a.Precedes c := by
  intro e he
  obtain ⟨e', he', honward⟩ := first e he
  rw [← honward.origin.id] at he'
  obtain ⟨e'', he'', honward'⟩ := second e' he'
  rw [honward.origin.id] at he''
  exact ⟨e'', he'', honward.trans honward'⟩

theorem World.Preserves.refl (w : World) : w.Preserves w := fun _ _ _ _ => rfl

-- A step that a record has taken is one that what it turns into has taken.
theorem World.Preserves.trans (precedes : a.Precedes b) (first : a.Preserves b)
    (second : b.Preserves c) : a.Preserves c := by
  intro e he kind hkind
  obtain ⟨e', he', honward⟩ := precedes e he
  rw [← honward.origin.id] at he'
  have hsecond := second e' he' kind (Nat.le_trans hkind honward.rank)
  rw [honward.origin.id, honward.origin.version] at hsecond
  exact hsecond.trans (first e he kind hkind)

theorem Unwritten.precedes (h : Unwritten env a b) : a.Precedes b := by
  intro e he
  rw [h.record?]
  exact ⟨e, he, .refl e⟩

theorem Rested.preserves (h : Rested env a b) : a.Preserves b := by
  intro e he kind hkind
  rw [Stores.message?, h.messages]
  rfl

end Preorder

section Run

variable {env : Environment} {before after : World} {version : Version} {operation : Operation}
  {outcome : Outcome} {e : Exchange}

-- An operation that writes a record which is already there writes what the record turns into.
theorem Operation.run_onward (names : Function.Injective env.exchangeName)
    (named : before.Named env) (h : operation.run version env before = (.ok outcome, after))
    (hstored : before.stores.record? outcome.record.id = some e) : e.Onward outcome.record := by
  obtain ⟨c, journal, hplan, -, hreaches, hstep⟩ := run_planned h
  have hforward := hstep.forward names named hstored
  refine ⟨hforward.origin, Nat.le_of_lt hforward.rises, fun hbound => ?_⟩
  have hbinds := plan_binds hplan hreaches
  have hopened : c.previous ≠ none := by
    intro hnone
    rw [(hstep.opens hnone).id, named.fresh names] at hstored
    cases hstored
  generalize c.previous = previous at hstep hbinds hopened
  cases hbinds with
  | started own => exact absurd rfl hopened
  | opened ready bound => exact absurd rfl hopened
  | kept stored same =>
    cases stored.symm.trans hstored
    exact same
  | takenUp stored unbound offered =>
    cases stored.symm.trans hstored
    rcases hbound with hholder | hrank
    · obtain ⟨old, hold, -, -, hkept⟩ := hstep.moves _ rfl
      cases hold.symm.trans hstored
      exact (hkept (hforward.origin.role.trans hholder)).symm
    · rw [offered] at hrank
      exact absurd hrank (by decide)

theorem Operation.run_precedes (names : Function.Injective env.exchangeName)
    (named : before.Named env) (version : Version) (operation : Operation) :
    before.Precedes (operation.run version env before).2 := by
  cases hrun : operation.run version env before with
  | mk result after =>
    cases result with
    | error x => exact (run_error hrun).precedes
    | ok outcome =>
      obtain ⟨previous, hstep⟩ := run_ok hrun
      intro e he
      rw [hstep.record?]
      split
      · next hid => exact ⟨outcome.record, rfl, run_onward names named hrun (hid ▸ he)⟩
      · exact ⟨e, he, .refl e⟩

-- The message that a record is about to get is of a step that the record has not taken yet.
theorem Planned.spares {journal : Journal} {c : Change} (names : Function.Injective env.exchangeName)
    (named : before.Named env) (addressed : operation.Addressed version)
    (h : operation.plan version env before.stores before.journal = (.ok c, journal))
    (hstored : before.stores.record? e.id = some e) {kind : Kind} (hkind : kind.rank ≤ e.state.rank) :
    c.savedMessage.key ≠ (e.id, typeUri e.version kind) := by
  intro hsame
  have hid : c.record.id = e.id := congrArg Prod.fst hsame
  have htype : c.message.type = typeUri e.version kind := congrArg Prod.snd hsame
  have hplanned := Operation.plan_ok h
  cases hnext : c.next with
  | none =>
    rw [← hid, (hplanned.opens hnext).id, named.fresh names] at hstored
    cases hstored
  | some next =>
    obtain ⟨old, hold, horigin, hstate, -⟩ := (hplanned.moves next hnext).stored
    rw [hid, hstored] at hold
    cases hold
    have htransition := hplanned.transition
    rw [Change.previous, hnext, Option.map_some, ← hstate] at htransition
    have hrises := htransition.rises.2
    have hrank := htransition.rank_eq
    have hwritten := (typeUri_inj htype).2
    rw [addressed.kind hplanned.carries] at hwritten
    rw [hwritten] at hrank
    omega

theorem Operation.run_preserves (names : Function.Injective env.exchangeName)
    (named : before.Named env) (addressed : operation.Addressed version) :
    before.Preserves (operation.run version env before).2 := by
  intro e he kind hkind
  exact congrArg (Option.map StoredMessage.value)
    (run_spares fun c journal hplan => Planned.spares names named addressed hplan he hkind)

end Run

-- A step that has been completed, as it is to be seen ever after: its message is stored as it was
-- written, and its record is there or one that it has turned into.
structure Outcome.StaysIn (o : Outcome) (w : World) : Prop where
  belongs : o.message.BelongsTo o.record
  rank : o.record.state.rank = o.message.kind.rank
  record : ∃ e, w.stores.record? o.record.id = some e ∧ o.record.Onward e
  message : w.stores.message? o.record.id o.message.type = some o.message.toJson

namespace Outcome.StaysIn

variable {env : Environment} {before after : World} {version : Version} {operation : Operation}
  {o : Outcome}

theorem of_run (routed : operation.Routed version)
    (h : operation.run version env before = (.ok o, after)) : o.StaysIn after := by
  obtain ⟨c, journal, hplan, hmessage, hreaches, hstep⟩ := Operation.run_planned h
  obtain ⟨updated, hrecord⟩ := hreaches.eq
  have hbelongs : o.message.BelongsTo o.record := by
    rw [hmessage, hrecord]
    exact (Operation.plan_belongs routed hplan).congr rfl rfl rfl
  refine ⟨hbelongs, ?_, ⟨o.record, ?_, .refl o.record⟩, ?_⟩
  · rw [hstep.transition.rank_eq, routed.addressed.kind hstep.carries]
  · rw [hstep.record?, if_pos rfl]
  · rw [Stores.message?, hstep.messages, Table.get?_put]
    exact congrArg (Option.map _) (if_pos rfl)

theorem later (h : o.StaysIn before) (precedes : before.Precedes after)
    (preserves : before.Preserves after) : o.StaysIn after := by
  obtain ⟨e, he, honward⟩ := h.record
  have hid := honward.origin.id
  rw [← hid] at he
  obtain ⟨e', he', hlater⟩ := precedes e he
  refine ⟨h.belongs, h.rank, ⟨e', hid ▸ he', honward.trans hlater⟩, ?_⟩
  have hkept := preserves e he o.message.kind (h.rank ▸ honward.rank)
  rw [hid, honward.origin.version, ← h.belongs.version] at hkept
  exact hkept.trans h.message

-- So the message is found and read as it was written, unless a collaborator fails.
theorem found (h : o.StaysIn after) (shows : env.Shows) :
    Inquiry.Yields env after.stores (findMessage o.record.id o.message.kind) (· = some o.message) := by
  obtain ⟨e, he, honward⟩ := h.record
  have hid := honward.origin.id
  have hmessage := h.message
  rw [Message.type, h.belongs.version, ← honward.origin.version, ← hid] at hmessage
  rw [← hid] at he ⊢
  exact findMessage_yields shows he ⟨_, hmessage, Message.ofJson_toJson h.belongs.plain⟩

end Outcome.StaysIn

section Lives

variable {env : Environment} {before : World} {deeds : List Deed}

theorem Deed.perform_stays (names : Function.Injective env.exchangeName)
    (named : before.Named env) {deed : Deed} (routed : deed.Routed) :
    before.Precedes (deed.perform env before) ∧ before.Preserves (deed.perform env before) ∧
      (deed.perform env before).Named env := by
  refine Deed.perform_induction
    (P := fun w => before.Precedes w ∧ before.Preserves w ∧ w.Named env) ?_ ?_
    ⟨.refl before, .refl before, named⟩
  · rintro between after ⟨hprecedes, hpreserves, hnamed⟩ hrested
    exact ⟨hprecedes.trans hrested.precedes, hpreserves.trans hprecedes hrested.preserves,
      hrested.named hnamed⟩
  · rintro between version operation does - ⟨hprecedes, hpreserves, hnamed⟩
    have hrun := Operation.run_precedes names hnamed version operation
    have hkept := Operation.run_preserves names hnamed (does.routed routed).addressed
    exact ⟨hprecedes.trans hrun, hpreserves.trans hprecedes hkept, hnamed.step version operation⟩

theorem Environment.live_stays (names : Function.Injective env.exchangeName)
    (named : before.Named env) (routed : ∀ deed ∈ deeds, deed.Routed) :
    before.Precedes (env.live before deeds) ∧ before.Preserves (env.live before deeds) ∧
      (env.live before deeds).Named env := by
  refine Environment.live_induction
    (P := fun w => before.Precedes w ∧ before.Preserves w ∧ w.Named env) ?_
    ⟨.refl before, .refl before, named⟩
  rintro between deed hdeed ⟨hprecedes, hpreserves, hnamed⟩
  obtain ⟨hperform, hkept, hlater⟩ := deed.perform_stays names hnamed (routed deed hdeed)
  exact ⟨hprecedes.trans hperform, hpreserves.trans hprecedes hkept, hlater⟩

end Lives

end CredentialIssuance
