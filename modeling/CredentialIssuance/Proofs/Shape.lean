import CredentialIssuance.Proofs.Chronicle
import CredentialIssuance.Proofs.History

namespace CredentialIssuance

-- Role and state tell which of the other fields are filled, and the time of the last change is
-- there exactly if there was one.
structure Exchange.Shaped (e : Exchange) : Prop where
  error : e.errorMessage.isSome ↔ e.state = .declined
  metadata : e.role = .holder → e.state ∈ [.requestSent, .credentialReceived, .done] →
    e.requestMetadata.isSome
  issuer : e.role = .issuer → e.requestMetadata = none
  unrequested : e.role = .holder → e.state ∈ [.proposalSent, .offerReceived] →
    e.requestMetadata = none
  credential : e.role = .holder → e.state ∈ [.credentialReceived, .done] →
    e.credentials.length = 1
  declined : e.role = .holder → e.state = .declined → e.credentials.length ≤ 1
  uncredited : ¬ (e.role = .holder ∧ e.state ∈ [.credentialReceived, .done, .declined]) →
    e.credentials = []
  accepted : e.role = .holder →
    e.state ∈ [.offerReceived, .requestSent, .credentialReceived, .done] → e.definition.isSome
  offered : e.role = .issuer → e.state ∈ [.offerSent, .credentialIssued, .done] →
    e.definition.isSome

-- An issuer that has been requested something without having offered it finds no offer to issue on.
def Exchange.Offering (s : Stores) (e : Exchange) : Prop :=
  e.role = .issuer → e.state = .requestReceived →
    e.definition.isSome ∨ s.message? e.id (typeUri e.version .offer) = none

namespace Exchange.Shaped

variable {e : Exchange}

theorem silent (h : e.Shaped) (hstate : e.state ≠ .declined) : e.errorMessage = none := by
  have herror := mt h.error.1 hstate
  simpa using herror

-- Whatever becomes of a record, it has no more than one credential.
theorem length_credentials_le (h : e.Shaped) : e.credentials.length ≤ 1 := by
  by_cases hcredited : e.role = .holder ∧ e.state ∈ [.credentialReceived, .done, .declined]
  · obtain ⟨hrole, hstate⟩ := hcredited
    by_cases hdeclined : e.state = .declined
    · exact h.declined hrole hdeclined
    · exact Nat.le_of_eq (h.credential hrole (by simpa [hdeclined] using hstate))
  · simp [h.uncredited hcredited]

end Exchange.Shaped

section Plan

variable {env : Environment} {stores : Stores} {journal after : Journal} {version : Version}
  {operation : Operation} {c : Change}

-- The record that an operation is about to write, as it will be stored.
theorem Operation.plan_shaped (shaped : ∀ e, stores.record? e.id = some e → e.Shaped)
    (offering : ∀ e, stores.record? e.id = some e → e.Offering stores)
    (h : operation.plan version env stores journal = (.ok c, after)) (updated : Option Timestamp) :
    ({ c.record with state := c.target, updatedAt := updated } : Exchange).Shaped := by
  cases operation with
  | propose connection proposal autoAccept =>
    obtain ⟨now, rfl, -⟩ := Holder.propose_ok h
    constructor <;> simp [Change.opening, Change.target, Exchange.new]
  | offer connection definition details autoAccept =>
    obtain ⟨payload, now, rfl, -⟩ := Issuer.offer_ok h
    constructor <;> simp [Change.opening, Change.target, Exchange.new]
  | answerProposal exchange definition details autoAccept =>
    obtain ⟨stored, _, _, _, hstored, -, hrole, hstate, -, rfl⟩ := Issuer.answerProposal_ok h
    have hshaped := shaped stored (Stores.record?_self hstored)
    have herror := hshaped.silent (by simp [hstate])
    have hmetadata := hshaped.issuer hrole
    have hcredentials := hshaped.uncredited (by simp [hrole])
    constructor <;> simp [Change.moving, Change.target, hrole, herror, hmetadata, hcredentials]
  | request exchange did autoAccept =>
    obtain ⟨stored, _, _, _, _, _, hstored, -, hrole, hstate, -, -, -, rfl⟩ := Holder.request_ok h
    have hshaped := shaped stored (Stores.record?_self hstored)
    have herror := hshaped.silent (by simp [hstate])
    have hcredentials := hshaped.uncredited (by simp [hstate])
    constructor <;> simp [Change.moving, Change.target, hrole, herror, hcredentials]
  | issue exchange comment autoAccept =>
    obtain ⟨stored, offer, _, _, _, _, _, _, hstored, -, hrole, hstate, hoffer, -, -, -, -, rfl⟩ :=
      Issuer.issue_ok h
    have hself := Stores.record?_self hstored
    have hshaped := shaped stored hself
    have herror := hshaped.silent (by simp [hstate])
    have hmetadata := hshaped.issuer hrole
    have hcredentials := hshaped.uncredited (by simp [hrole])
    -- The offer that is issued on is stored.
    have hdefinition : stored.definition.isSome := by
      obtain ⟨value, hvalue, -⟩ := hoffer
      rcases offering stored hself hrole hstate with hdefinition | hnone
      · exact hdefinition
      · cases hnone.symm.trans hvalue
    constructor <;>
      simp [Change.moving, Change.target, hrole, herror, hmetadata, hcredentials, hdefinition]
  | acknowledge exchange =>
    obtain ⟨stored, _, hstored, -, hrole, hstate, rfl⟩ := Holder.acknowledge_ok h
    have hshaped := shaped stored (Stores.record?_self hstored)
    have herror := hshaped.silent (by simp [hstate])
    have hmetadata := hshaped.metadata hrole (by simp [hstate])
    have hcredentials := hshaped.credential hrole (by simp [hstate])
    have hdefinition := hshaped.accepted hrole (by simp [hstate])
    constructor <;>
      simp [Change.moving, Change.target, hrole, herror, hmetadata, hcredentials, hdefinition]
  | decline exchange reason =>
    obtain ⟨stored, _, hstored, -, hrole, hstate, rfl⟩ := Holder.decline_ok h
    have hshaped := shaped stored (Stores.record?_self hstored)
    have hcredentials := hshaped.uncredited (by simp [hstate])
    constructor <;> simp [Change.moving, Change.target, hrole, hcredentials]
  | receive kind inbound =>
    cases kind with
    | propose =>
      obtain ⟨-, -, _, _, _, -, -, -, rfl, -⟩ := Issuer.receiveProposal_ok h
      constructor <;> simp [Change.opening, Change.target, Exchange.new]
    | offer =>
      obtain ⟨_, _, -, -, ⟨stored, hstored, hanswers, -, hstate, rfl⟩ | ⟨_, _, -, -, rfl, -⟩⟩ :=
        Holder.receiveOffer_ok h
      · have hrole : stored.role = .holder := hanswers.2.1 _ rfl
        have hshaped := shaped stored hstored
        have herror := hshaped.silent (by simp [hstate])
        have hmetadata := hshaped.unrequested hrole (by simp [hstate])
        have hcredentials := hshaped.uncredited (by simp [hstate])
        constructor <;> simp [Change.moving, Change.target, hrole, herror, hmetadata, hcredentials]
      · constructor <;> simp [Change.opening, Change.target, Exchange.new]
    | request =>
      obtain ⟨_, _, -, -, ⟨stored, hstored, hanswers, -, -, hstate, rfl⟩ | ⟨_, -, rfl, -⟩⟩ :=
        Issuer.receiveRequest_ok h
      · have hrole : stored.role = .issuer := hanswers.2.1 _ rfl
        have hshaped := shaped stored hstored
        have herror := hshaped.silent (by simp [hstate])
        have hmetadata := hshaped.issuer hrole
        have hcredentials := hshaped.uncredited (by simp [hrole])
        constructor <;> simp [Change.moving, Change.target, hrole, herror, hmetadata, hcredentials]
      · constructor <;> simp [Change.opening, Change.target, Exchange.new]
    | issue =>
      obtain ⟨stored, _, _, _, _, hstored, -, -, hanswers, -, hstate, -, rfl⟩ :=
        Holder.receiveCredential_ok h
      have hrole : stored.role = .holder := hanswers.2.1 _ rfl
      have hshaped := shaped stored hstored
      have herror := hshaped.silent (by simp [hstate])
      have hmetadata := hshaped.metadata hrole (by simp [hstate])
      have hcredentials := hshaped.uncredited (by simp [hstate])
      have hdefinition := hshaped.accepted hrole (by simp [hstate])
      constructor <;>
        simp [Change.moving, Change.target, hrole, herror, hmetadata, hcredentials, hdefinition]
    | ack =>
      obtain ⟨-, -, stored, hstored, hanswers, -, hstate, rfl⟩ := Issuer.receiveAck_ok h
      have hrole : stored.role = .issuer := hanswers.2.1 _ rfl
      have hshaped := shaped stored hstored
      have herror := hshaped.silent (by simp [hstate])
      have hmetadata := hshaped.issuer hrole
      have hcredentials := hshaped.uncredited (by simp [hrole])
      have hdefinition := hshaped.offered hrole (by simp [hstate])
      constructor <;>
        simp [Change.moving, Change.target, hrole, herror, hmetadata, hcredentials, hdefinition]
    | problemReport =>
      obtain ⟨stored, hstored, -, -, -, hopen, rfl⟩ := receiveReport_ok h
      have hshaped := shaped stored hstored
      have hcredentials := hshaped.length_credentials_le
      constructor <;> simp [Change.moving, Change.target, hcredentials]
      · exact hshaped.issuer
      · exact fun hrole => hshaped.uncredited (by simp [hrole])

-- A record that is opened has not been changed yet.
theorem Operation.plan_opened (h : operation.plan version env stores journal = (.ok c, after))
    (hnext : c.next = none) : c.record.updatedAt = none := by
  have hnamed : ∀ id, operation.exchange? ≠ some id := by
    intro id named
    obtain ⟨-, next, hmoves⟩ := plan_named named h
    cases hnext.symm.trans hmoves
  cases operation with
  | propose connection proposal autoAccept =>
    obtain ⟨now, rfl, -⟩ := Holder.propose_ok h
    rfl
  | offer connection definition details autoAccept =>
    obtain ⟨payload, now, rfl, -⟩ := Issuer.offer_ok h
    rfl
  | receive kind inbound =>
    cases kind with
    | propose =>
      obtain ⟨-, -, _, _, _, -, -, -, rfl, -⟩ := Issuer.receiveProposal_ok h
      rfl
    | offer =>
      obtain ⟨_, _, -, -, ⟨stored, -, -, -, -, rfl⟩ | ⟨_, _, -, -, rfl, -⟩⟩ :=
        Holder.receiveOffer_ok h
      · cases hnext
      · rfl
    | request =>
      obtain ⟨_, _, -, -, ⟨stored, -, -, -, -, -, rfl⟩ | ⟨_, -, rfl, -⟩⟩ :=
        Issuer.receiveRequest_ok h
      · cases hnext
      · rfl
    | issue =>
      obtain ⟨stored, _, _, _, _, -, -, -, -, -, -, -, rfl⟩ := Holder.receiveCredential_ok h
      cases hnext
    | ack =>
      obtain ⟨-, -, stored, -, -, -, -, rfl⟩ := Issuer.receiveAck_ok h
      cases hnext
    | problemReport =>
      obtain ⟨stored, -, -, -, -, -, rfl⟩ := receiveReport_ok h
      cases hnext
  | _ => exact absurd rfl (hnamed _)

-- A record that a request moves has been offered.
theorem Operation.plan_requested (shaped : ∀ e, stores.record? e.id = some e → e.Shaped)
    (h : operation.plan version env stores journal = (.ok c, after))
    (hnext : c.next = some .requestReceived) : c.record.definition.isSome := by
  have htransition := (plan_ok h).transition
  rw [Change.previous, Change.target, hnext] at htransition
  generalize hparty : operation.party = party at htransition
  generalize hkind : operation.kind = kind at htransition
  generalize c.record.role = role at htransition
  generalize c.record.state = old at htransition
  cases htransition
  cases operation with
  | receive kind inbound =>
    cases hkind
    obtain ⟨_, _, -, -, ⟨stored, hstored, hanswers, -, -, hstate, rfl⟩ | ⟨_, -, rfl, -⟩⟩ :=
      Issuer.receiveRequest_ok h
    · exact (shaped stored hstored).offered (hanswers.2.1 _ rfl) (by simp [hstate])
    · cases hnext
  | _ => cases hparty

end Plan

-- Whether the record has changed since it was opened, told by its history.
def Exchange.Changed (s : Stores) (e : Exchange) : Prop :=
  ∃ first, (s.history e.id).head? = some first ∧ first.previous = none ∧
    first.state.rank ≤ e.state.rank ∧ (e.updatedAt.isSome ↔ first.state ≠ e.state)

-- The records of an agent are in shape, and its messages are stored for identifiers it has drawn.
structure World.Shaped (env : Environment) (w : World) : Prop where
  drawn : ∀ s ∈ w.stores.messages.entries, ∃ n < w.journal.exchanges,
    s.exchange = env.exchangeName n
  shaped : ∀ e, w.stores.record? e.id = some e → e.Shaped
  offering : ∀ e, w.stores.record? e.id = some e → e.Offering w.stores
  changed : ∀ e, w.stores.record? e.id = some e → e.Changed w.stores

namespace World.Shaped

variable {env : Environment} {before after : World} {version : Version} {operation : Operation}
  {outcome : Outcome}

theorem empty (env : Environment) : World.empty.Shaped env where
  drawn := by
    intro s hs
    cases hs
  shaped := by
    intro e he
    cases he
  offering := by
    intro e he
    cases he
  changed := by
    intro e he
    cases he

-- No message is stored under the identifier that comes next.
theorem message?_fresh (h : before.Shaped env) (names : Function.Injective env.exchangeName)
    (type : String) :
    before.stores.message? (env.exchangeName before.journal.exchanges) type = none := by
  cases hfound : before.stores.messages.get? (env.exchangeName before.journal.exchanges, type) with
  | none => rw [Stores.message?, hfound, Option.map_none]
  | some s =>
    obtain ⟨hmem, hkey⟩ := (before.stores.messages.get?_eq_some_iff ..).1 hfound
    obtain ⟨n, hlt, hname⟩ := h.drawn s hmem
    have hsame : n = before.journal.exchanges :=
      names (hname.symm.trans (congrArg Prod.fst hkey))
    omega

-- Records and their history are as they were, and so are the messages of their steps.
theorem unwritten (h : before.Shaped env) (hunwritten : Unwritten env before after)
    (preserves : before.Preserves after)
    (drawn : ∀ s ∈ after.stores.messages.entries, ∃ n < after.journal.exchanges,
      s.exchange = env.exchangeName n) : after.Shaped env where
  drawn := drawn
  shaped := by
    intro e he
    rw [hunwritten.record?] at he
    exact h.shaped e he
  offering := by
    intro e he
    rw [hunwritten.record?] at he
    intro hrole hstate
    rw [preserves e he .offer (by rw [hstate]; decide)]
    exact h.offering e he hrole hstate
  changed := by
    intro e he
    rw [hunwritten.record?] at he
    have hchanged := h.changed e he
    rw [Exchange.Changed, Stores.history, hunwritten.events]
    exact hchanged

theorem rested (h : before.Shaped env) (hrested : Rested env before after) : after.Shaped env := by
  refine h.unwritten hrested.toUnwritten hrested.preserves ?_
  have hcount := hrested.exchanges
  intro s hs
  rw [hrested.messages] at hs
  obtain ⟨n, hlt, hname⟩ := h.drawn s hs
  exact ⟨n, by omega, hname⟩

theorem drawn_put (h : before.Shaped env) {saved : StoredMessage}
    (hmessages : after.stores.messages = before.stores.messages.put saved)
    (hcount : before.journal.exchanges ≤ after.journal.exchanges)
    (hdrawn : ∃ n < after.journal.exchanges, saved.exchange = env.exchangeName n) :
    ∀ s ∈ after.stores.messages.entries, ∃ n < after.journal.exchanges,
      s.exchange = env.exchangeName n := by
  intro s hs
  rw [hmessages, Table.mem_put_iff] at hs
  rcases hs with rfl | ⟨hmem, -⟩
  · exact hdrawn
  · obtain ⟨n, hlt, hname⟩ := h.drawn s hmem
    exact ⟨n, by omega, hname⟩

section Run

variable (h : before.Shaped env) (names : Function.Injective env.exchangeName)
  (named : before.Named env) (addressed : operation.Addressed version)

include h names named addressed in
theorem run_error {x : Error} (hrun : operation.run version env before = (.error x, after)) :
    after.Shaped env := by
  have hpreserves := Operation.run_preserves names named addressed
  rw [hrun] at hpreserves
  have hunwritten := Operation.run_error hrun
  refine h.unwritten hunwritten hpreserves ?_
  have hcount := hunwritten.exchanges
  have hkept : after.stores.messages = before.stores.messages →
      ∀ s ∈ after.stores.messages.entries, ∃ n < after.journal.exchanges,
        s.exchange = env.exchangeName n := by
    intro hmessages s hs
    rw [hmessages] at hs
    obtain ⟨n, hlt, hname⟩ := h.drawn s hs
    exact ⟨n, by omega, hname⟩
  rcases Operation.run_eq_error hrun with ⟨journal, -, rfl⟩ | ⟨c, journal, hplan, hcommit⟩
  · exact hkept rfl
  · have habandoned := Change.commit_error hcommit
    rcases habandoned.messages with hsame | hsaved
    · exact hkept hsame
    · refine h.drawn_put hsaved hcount ?_
      rw [habandoned.exchanges]
      exact (Operation.plan_ok hplan).origin.exists_drawn named
        (Operation.plan_extends hplan).exchanges

include h names named addressed in
theorem run_ok (logged : before.Logged)
    (hrun : operation.run version env before = (.ok outcome, after)) : after.Shaped env := by
  have hpreserves := Operation.run_preserves names named addressed
  rw [hrun] at hpreserves
  obtain ⟨c, journal, hplan, hmessage, hreaches, hstep⟩ := Operation.run_planned hrun
  obtain ⟨updated, hrecord⟩ := hreaches.eq
  refine ⟨h.drawn_put hstep.messages hstep.exchanges
    (hstep.origin.exists_drawn named hstep.exchanges), ?shaped, ?offering, ?changed⟩
  case shaped =>
    intro e he
    rw [hstep.record?] at he
    split at he
    · cases he
      rw [hrecord]
      exact Operation.plan_shaped h.shaped h.offering hplan updated
    · exact h.shaped e he
  case offering =>
    intro e he
    rw [hstep.record?] at he
    split at he
    · cases he
      intro hrole hstate
      cases hnext : c.next with
      | some next =>
        left
        rw [hrecord, hnext] at hstate
        rw [hrecord]
        exact Operation.plan_requested h.shaped hplan (hnext.trans (congrArg some hstate))
      | none =>
        right
        -- Nothing but the request is stored for a record that has been opened by it.
        have hid := (hstep.opens (by rw [Change.previous, hnext]; rfl)).id
        have hkind := hstep.transition.rank_eq
        rw [hstate, ← addressed.kind hstep.carries] at hkind
        have hnone := h.message?_fresh names (typeUri outcome.record.version .offer)
        rw [← hid] at hnone
        rw [Stores.message?, hstep.messages, Table.get?_put]
        split
        · next hsame =>
          rw [(typeUri_inj (congrArg Prod.snd hsame)).2] at hkind
          cases hkind
        · exact hnone
    · intro hrole hstate
      rw [hpreserves e he .offer (by rw [hstate]; decide)]
      exact h.offering e he hrole hstate
  case changed =>
    intro e he
    rw [hstep.record?] at he
    rw [Exchange.Changed, hstep.history]
    split at he
    · next hid =>
      cases he
      rw [if_pos rfl]
      cases hnext : c.next with
      | none =>
        have hprevious : c.previous = none := by rw [Change.previous, hnext]; rfl
        have hid := (hstep.opens hprevious).id
        have hsilent := logged.silent _ (hid ▸ named.fresh names)
        rw [hnext] at hreaches
        have hupdated := Operation.plan_opened hplan hnext
        rw [← hreaches] at hupdated
        rw [hsilent, hprevious]
        exact ⟨_, rfl, rfl, Nat.le_refl _, by simp [hupdated, Event.state]⟩
      | some next =>
        have hprevious : c.previous = some c.record.state := by rw [Change.previous, hnext]; rfl
        obtain ⟨old, hold, horigin, hstate, -⟩ := hstep.moves _ hprevious
        obtain ⟨first, hhead, hfirst, hrank, -⟩ := h.changed old (Stores.record?_self hold)
        rw [← horigin.id] at hhead
        have hrises := hstep.transition
        rw [hprevious] at hrises
        have hlt := hrises.rises.2
        rw [← hstate] at hlt
        rw [hnext] at hreaches
        obtain ⟨now, hadvance⟩ := hreaches
        have hupdated : outcome.record.updatedAt = some now := by
          rw [(Exchange.advance_ok hadvance).2.2]
        refine ⟨first, by rw [List.head?_append, hhead]; rfl, hfirst, by omega, ?_⟩
        rw [hupdated]
        refine ⟨fun _ hsame => ?_, fun _ => rfl⟩
        rw [hsame] at hrank
        omega
    · next hid =>
      rw [if_neg hid, List.append_nil]
      exact h.changed e he

end Run

end World.Shaped

theorem Chronicle.logged {env : Environment} {past : List Ran} {world : World}
    (h : Chronicle env past world) (names : Function.Injective env.exchangeName) : world.Logged := by
  induction h with
  | opens => exact .empty
  | rests _ rested ih => exact rested.toUnwritten.logged ih
  | @runs past before earlier version operation ih =>
    rcases operation.run_cases env before version with hunwritten | ⟨outcome, previous, hstep⟩
    · exact hunwritten.logged ih
    · exact hstep.logged names earlier.named ih

theorem Chronicle.shaped {env : Environment} {past : List Ran} {world : World}
    (h : Chronicle env past world) (names : Function.Injective env.exchangeName)
    (addressed : ∀ ran ∈ past, ran.operation.Addressed ran.version) : world.Shaped env := by
  induction h with
  | opens => exact .empty env
  | rests _ rested ih => exact (ih addressed).rested rested
  | @runs past before earlier version operation ih =>
    obtain ⟨hbefore, hlast⟩ := List.forall_mem_append.1 addressed
    have hrouted := hlast _ (List.mem_singleton_self _)
    have hshaped := ih hbefore
    cases hrun : operation.run version env before with
    | mk result after =>
      cases result with
      | error x => exact hshaped.run_error names earlier.named hrouted hrun
      | ok outcome => exact hshaped.run_ok names earlier.named hrouted (earlier.logged names) hrun

section Metadata

variable {env : Environment} {stores : Stores} {version : Version} {inbound : Inbound} {id : String}

open Inquiry in
-- A holder that takes in a credential has the metadata of its request, if its records are in shape.
theorem Holder.receiveCredential_metadata
    (shaped : ∀ e, stores.record? e.id = some e → e.Shaped) :
    Ends env stores (receiveCredential version inbound) (fun _ => True)
      (· ≠ .notFound (.requestMetadata id)) := by
  have hexternal : ∀ x, env.Causes x → x ≠ .notFound (.requestMetadata id) := by
    rintro _ ⟨_, _, text, -, rfl⟩
    exact nofun
  refine .bind (.lift (fun _ _ => trivial) ?payload) fun payload _ =>
    .bind (.lift (fun _ _ => trivial) ?credential) fun credential _ => ?_
  case payload =>
    intro x h
    cases Version.payload_eq_error_iff.1 h <;> exact nofun
  case credential =>
    intro x h
    unfold CredentialPayload.ofText at h
    split at h <;> cases h
    exact nofun
  refine .bind (Q := fun found => ∀ e ∈ found, stores.record? e.id = some e ∧ e.role = .holder)
    (.onThread hexternal ?found ?ambiguous) fun found hfound => ?_
  case found =>
    intro found h e he
    cases he
    obtain ⟨hmem, hanswers⟩ := select_some h
    exact ⟨(Stores.mem_onThread_iff.1 hmem).1, hanswers.2.1 _ rfl⟩
  case ambiguous =>
    intro x h
    rw [(select_fault (stores.onThread_nodup _) h).1]
    exact nofun
  refine .bind (.require hfound fun _ => nofun) ?_
  rintro stored ⟨hstored, hrole⟩
  refine .bind (.lift (fun _ _ => trivial) ?version) fun _ _ =>
    .bind (Q := fun _ => stored.state = .requestSent)
      (.lift (fun _ h => Exchange.assertState_ok h) ?state) fun _ hstate => ?_
  case version =>
    intro x h
    unfold Exchange.assertVersion at h
    split at h <;> cases h
    exact nofun
  case state =>
    intro x h
    unfold Exchange.assertState at h
    split at h <;> cases h
    exact nofun
  have hmetadata := (shaped stored hstored).metadata hrole (by simp [hstate])
  refine .bind (.require (fun _ _ => trivial) fun hnone => ?_) fun metadata _ => ?_
  · rw [hnone] at hmetadata
    cases hmetadata
  refine .bind (.ledger hexternal _ _) fun _ _ => .bind (.ledger hexternal _ _) fun definition _ => ?_
  refine .bind (.registry hexternal _) fun registry _ => .bind (.call hexternal _) fun secret _ => ?_
  exact .bind (.call hexternal _) fun credentialId _ => .pure trivial

theorem Operation.receive_issue_ne {world : World}
    (shaped : ∀ e, world.stores.record? e.id = some e → e.Shaped) :
    ((Operation.receive .issue inbound).run version env world).1 ≠
      .error (.notFound (.requestMetadata id)) := by
  intro hresult
  rcases run_eq_error (Prod.ext hresult rfl) with ⟨journal, hplan, -⟩ | ⟨c, journal, -, hcommit⟩
  · have hends : Inquiry.Ends env world.stores (Holder.receiveCredential version inbound)
        (fun _ => True) (· ≠ .notFound (.requestMetadata id)) :=
      Holder.receiveCredential_metadata shaped
    replace hends := hends world.journal
    rw [show Holder.receiveCredential version inbound env world.stores world.journal = _ from hplan]
      at hends
    exact hends rfl
  · rcases Change.commit_error_cases hcommit with ⟨_, _, _, -, hcaused⟩ | ⟨_, -, ⟨-, hclosed⟩ |
      ⟨hmissing, -⟩⟩
    · cases hcaused
    · cases hclosed
    · cases hmissing

end Metadata

-- What can be told of the records of an agent.
structure World.Conforms (env : Environment) (w : World) : Prop where
  -- Each has what its role and state ask for, and nothing else.
  shaped : ∀ e ∈ w.stores.records.entries, e.Shaped
  -- Each has the time of its last change exactly if it is not in the state it was opened in.
  changed : ∀ e ∈ w.stores.records.entries, ∃ first, (w.stores.history e.id).head? = some first ∧
    first.previous = none ∧ (e.updatedAt.isSome ↔ first.state ≠ e.state)
  -- So a credential is never refused for want of the metadata of its request.
  metadata : ∀ version inbound id, ((Operation.receive .issue inbound).run version env w).1 ≠
    .error (.notFound (.requestMetadata id))

namespace Environment

-- Whatever an agent has been through, and whatever has failed.
theorem live_conforms {env : Environment} {deeds : List Deed}
    (names : Function.Injective env.exchangeName) (addressed : ∀ deed ∈ deeds, deed.Addressed) :
    (env.live World.empty deeds).Conforms env := by
  obtain ⟨past, hpast, hamong⟩ := env.live_chronicle deeds
  have hshaped : (env.live World.empty deeds).Shaped env := by
    refine hpast.shaped names fun ran hran => ?_
    obtain ⟨deed, hdeed, does⟩ := hamong ran hran
    exact does.addressed (addressed deed hdeed)
  refine ⟨fun e he => ?shaped, fun e he => ?changed, fun version inbound id => ?metadata⟩
  case shaped => exact hshaped.shaped e (Stores.record?_eq_some_iff.2 ⟨he, rfl⟩)
  case changed =>
    obtain ⟨first, hhead, hfirst, -, hupdated⟩ :=
      hshaped.changed e (Stores.record?_eq_some_iff.2 ⟨he, rfl⟩)
    exact ⟨first, hhead, hfirst, hupdated⟩
  case metadata => exact Operation.receive_issue_ne hshaped.shaped

-- A holder that has accepted an offer has kept the metadata of its request, and its record has
-- changed since it was opened.
theorem live_conforms_requested :
    let env := Environment.steady 'a'
    let offer := Message.openingOffer "thread"
    let deeds : List Deed := [.arriving offer "connection", .operate .v1 (.request "e" none none)]
    let world := env.live World.empty deeds
    ∃ e ∈ world.stores.records.entries, e.state = .requestSent ∧ e.requestMetadata.isSome ∧
      ∃ first, (world.stores.history e.id).head? = some first ∧ first.state ≠ e.state := by
  intro env offer deeds world
  have hrequested : ∃ e ∈ world.stores.records.entries,
      e.role = .holder ∧ e.state = .requestSent ∧ e.updatedAt.isSome := by decide +kernel
  have addressed : ∀ deed ∈ deeds, deed.Addressed := by
    intro deed hdeed
    rcases List.mem_pair.1 hdeed with rfl | rfl
    · exact ⟨rfl, rfl⟩
    · trivial
  have hconforms : world.Conforms env := live_conforms (steady_fresh 'a') addressed
  clear_value world
  obtain ⟨e, he, hrole, hstate, hupdated⟩ := hrequested
  obtain ⟨first, hhead, -, hchanged⟩ := hconforms.changed e he
  have hmetadata := (hconforms.shaped e he).metadata hrole (by simp [hstate])
  exact ⟨e, he, hstate, hmetadata, first, hhead, hchanged.1 hupdated⟩

end Environment

end CredentialIssuance
