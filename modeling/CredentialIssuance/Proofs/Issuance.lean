import CredentialIssuance.Proofs.Asking
import CredentialIssuance.Proofs.Chronicle

namespace CredentialIssuance

-- What becomes of the attributes: an offer sets them, and a request takes them once more from the
-- offer that is stored.
theorem Operation.plan_attributes {env : Environment} {stores : Stores} {journal after : Journal}
    {version : Version} {operation : Operation} {c : Change}
    (h : operation.plan version env stores journal = (.ok c, after)) :
    (operation.kind = .offer → c.record.attributes = version.attributes c.message) ∧
      (operation.kind ≠ .offer → c.next = none ∨
        ∃ old, stores.record? c.record.id = some old ∧ (c.record.attributes = old.attributes ∨
          ∃ m, stores.Holds old .offer m ∧
            c.record.attributes = (version.preview m).getD old.attributes)) := by
  cases operation with
  | propose connection proposal autoAccept =>
    obtain ⟨now, rfl, -⟩ := Holder.propose_ok h
    exact ⟨(fun hkind => by cases hkind), fun _ => .inl rfl⟩
  | offer connection definition details autoAccept =>
    obtain ⟨payload, now, rfl, -⟩ := Issuer.offer_ok h
    exact ⟨fun _ => by simp only [Change.opening, Version.attributes_offer],
      fun hother => absurd rfl hother⟩
  | answerProposal exchange definition details autoAccept =>
    obtain ⟨stored, _, _, _, -, -, -, -, -, rfl⟩ := Issuer.answerProposal_ok h
    exact ⟨fun _ => by simp only [Change.moving, Version.attributes_offer],
      fun hother => absurd rfl hother⟩
  | request exchange did autoAccept =>
    obtain ⟨stored, offer, _, _, _, _, hstored, -, -, -, hoffer, -, -, rfl⟩ := Holder.request_ok h
    exact ⟨(fun hkind => by cases hkind),
      fun _ => .inr ⟨stored, Stores.record?_self hstored, .inr ⟨offer, hoffer, rfl⟩⟩⟩
  | issue exchange comment autoAccept =>
    obtain ⟨stored, _, _, _, _, _, _, _, hstored, -, -, -, -, -, -, -, -, rfl⟩ := Issuer.issue_ok h
    exact ⟨(fun hkind => by cases hkind),
      fun _ => .inr ⟨stored, Stores.record?_self hstored, .inl rfl⟩⟩
  | acknowledge exchange =>
    obtain ⟨stored, _, hstored, -, -, -, rfl⟩ := Holder.acknowledge_ok h
    exact ⟨(fun hkind => by cases hkind),
      fun _ => .inr ⟨stored, Stores.record?_self hstored, .inl rfl⟩⟩
  | decline exchange reason =>
    obtain ⟨stored, _, hstored, -, -, -, rfl⟩ := Holder.decline_ok h
    exact ⟨(fun hkind => by cases hkind),
      fun _ => .inr ⟨stored, Stores.record?_self hstored, .inl rfl⟩⟩
  | receive kind inbound =>
    cases kind with
    | propose =>
      obtain ⟨-, -, _, _, _, -, -, -, rfl, -⟩ := Issuer.receiveProposal_ok h
      exact ⟨(fun hkind => by cases hkind), fun _ => .inl rfl⟩
    | offer =>
      obtain ⟨_, _, -, -, ⟨stored, -, -, -, -, rfl⟩ | ⟨_, _, -, -, rfl, -⟩⟩ :=
        Holder.receiveOffer_ok h
      · exact ⟨fun _ => rfl, fun hother => absurd rfl hother⟩
      · exact ⟨fun _ => rfl, fun hother => absurd rfl hother⟩
    | request =>
      obtain ⟨_, _, -, -, ⟨stored, hstored, -, -, -, -, rfl⟩ | ⟨_, -, rfl, -⟩⟩ :=
        Issuer.receiveRequest_ok h
      · exact ⟨(fun hkind => by cases hkind), fun _ => .inr ⟨stored, hstored, .inl rfl⟩⟩
      · exact ⟨(fun hkind => by cases hkind), fun _ => .inl rfl⟩
    | issue =>
      obtain ⟨stored, _, _, _, _, hstored, -, -, -, -, -, -, rfl⟩ := Holder.receiveCredential_ok h
      exact ⟨(fun hkind => by cases hkind), fun _ => .inr ⟨stored, hstored, .inl rfl⟩⟩
    | ack =>
      obtain ⟨-, -, stored, hstored, -, -, -, rfl⟩ := Issuer.receiveAck_ok h
      exact ⟨(fun hkind => by cases hkind), fun _ => .inr ⟨stored, hstored, .inl rfl⟩⟩
    | problemReport =>
      obtain ⟨stored, hstored, -, -, -, -, rfl⟩ := receiveReport_ok h
      exact ⟨(fun hkind => by cases hkind), fun _ => .inr ⟨stored, hstored, .inl rfl⟩⟩

-- What is read of a stored message is the message that was written.
theorem Outcome.StaysIn.holds_eq {o : Outcome} {world : World} {e : Exchange} {m : Message}
    (h : o.StaysIn world) (hid : e.id = o.record.id) (hversion : e.version = o.record.version)
    (holds : world.stores.Holds e o.message.kind m) : m = o.message := by
  obtain ⟨value, hvalue, hread⟩ := holds
  rw [hid, hversion, ← h.belongs.version] at hvalue
  cases hvalue.symm.trans h.message
  rw [Message.ofJson_toJson h.belongs.plain] at hread
  exact (Except.ok.inj hread).symm

-- The step of an offer, on either side, and the record that the exchange has come to since.
structure Outcome.Fills (o : Outcome) (e : Exchange) : Prop where
  offer : o.message.kind = .offer
  onward : o.record.Onward e
  attributes : e.attributes = e.version.attributes o.message

section Fills

variable {env : Environment} {before after : World} {version : Version} {operation : Operation}
  {o outcome : Outcome} {e : Exchange}

-- The step of an offer fills in the attributes.
theorem Outcome.Fills.of_run (hkind : operation.kind = .offer) (routed : operation.Routed version)
    (h : operation.run version env before = (.ok o, after)) : o.Fills o.record := by
  obtain ⟨c, journal, hplan, hmessage, hreaches, hstep⟩ := Operation.run_planned h
  obtain ⟨updated, hrecord⟩ := hreaches.eq
  refine ⟨(routed.addressed.kind hstep.carries).trans hkind, .refl _, ?_⟩
  have hattributes := (Operation.plan_attributes hplan).1 hkind
  rw [hstep.version, hmessage, hrecord]
  exact hattributes

-- No later step changes them: the exchange is past its offer, and the offer that a request looks up
-- is the one that has filled them in.
theorem Outcome.Fills.run (h : o.Fills e) (stays : o.StaysIn before)
    (names : Function.Injective env.exchangeName) (named : before.Named env)
    (hrun : operation.run version env before = (.ok outcome, after))
    (hstored : before.stores.record? outcome.record.id = some e) : o.Fills outcome.record := by
  have honward := Operation.run_onward names named hrun hstored
  have hrises := (Operation.run_ok hrun).choose_spec.forward names named hstored |>.rises
  obtain ⟨c, journal, hplan, -, hreaches, hstep⟩ := Operation.run_planned hrun
  obtain ⟨updated, hrecord⟩ := hreaches.eq
  have hid : outcome.record.id = c.record.id := by rw [hrecord]
  have hkind : operation.kind ≠ .offer := by
    intro hoffer
    have hrank := hstep.transition.rank_eq
    have hfilled := h.onward.rank
    rw [hoffer] at hrank
    rw [stays.rank, h.offer] at hfilled
    change _ = 2 at hrank
    change 2 ≤ _ at hfilled
    omega
  have hattributes : outcome.record.attributes = e.attributes := by
    rw [hrecord]
    rcases (Operation.plan_attributes hplan).2 hkind with hnone | ⟨old, hold, hsame | ⟨m, hm, hread⟩⟩
    · rw [hid, ((Operation.plan_ok hplan).opens hnone).id, named.fresh names] at hstored
      cases hstored
    · rw [← hid, hstored] at hold
      cases hold
      exact hsame
    · rw [← hid, hstored] at hold
      cases hold
      rw [← h.offer] at hm
      rw [stays.holds_eq h.onward.origin.id h.onward.origin.version hm] at hread
      have hversion : e.version = version := by
        rw [← hstep.version, honward.origin.version]
      have hfilled := h.attributes
      rw [hversion] at hfilled
      -- Where the offer lists no attributes, the record has none.
      cases hpreview : version.preview o.message with
      | none => rw [hread, hpreview, Option.getD_none]
      | some attributes =>
        rw [hpreview, Option.getD_some] at hread
        rw [Version.attributes, hpreview, Option.getD_some] at hfilled
        exact hread.trans hfilled.symm
  refine ⟨h.offer, h.onward.trans honward, ?_⟩
  rw [hattributes, h.attributes, honward.origin.version]

end Fills

-- A step that has been completed: by which party the message was sent, what kind of message it was,
-- and what has been given back.
def Ran.Completes (ran : Ran) (party : Party) (kind : Kind) (o : Outcome) : Prop :=
  ran.operation.party = party ∧ ran.operation.kind = kind ∧ ran.result = .ok o

namespace Chronicle

variable {env : Environment} {past : List Ran} {world : World} {o : Outcome}

-- Since its offer, whoever has made it, an exchange has the attributes of the offer.
theorem fills (h : Chronicle env past world) (names : Function.Injective env.exchangeName)
    (routed : ∀ ran ∈ past, ran.Routed) {ran : Ran} (hran : ran ∈ past)
    (hkind : ran.operation.kind = .offer) (hok : ran.result = .ok o) :
    ∃ e, world.stores.record? o.record.id = some e ∧ o.Fills e := by
  induction h with
  | opens => cases hran
  | rests _ rested ih =>
    rw [rested.record?]
    exact ih routed hran
  | @runs past before earlier version operation ih =>
    obtain ⟨hbefore, hlast⟩ := Ran.routed_concat routed
    rcases List.mem_append.1 hran with hearlier | hnow
    · obtain ⟨e, he, hfills⟩ := ih hbefore hearlier
      have hstays := earlier.stays names hbefore hearlier hok
      cases hrun : operation.run version env before with
      | mk result after =>
        cases result with
        | error x =>
          rw [(Operation.run_error hrun).record?]
          exact ⟨e, he, hfills⟩
        | ok outcome =>
          obtain ⟨previous, hstep⟩ := Operation.run_ok hrun
          rw [hstep.record?]
          split
          · next hid =>
            exact ⟨_, rfl, hfills.run hstays names earlier.named hrun (hid ▸ he)⟩
          · exact ⟨e, he, hfills⟩
    · rw [List.mem_singleton.1 hnow] at hkind hok
      have hrun : operation.run version env before = (.ok o, (operation.run version env before).2) :=
        Prod.ext hok rfl
      obtain ⟨previous, hstep⟩ := Operation.run_ok hrun
      refine ⟨o.record, ?_, .of_run hkind hlast hrun⟩
      rw [hstep.record?, if_pos rfl]

-- Every record that is stored is what some step has given back.
theorem written (h : Chronicle env past world) {e : Exchange}
    (he : world.stores.record? e.id = some e) :
    ∃ ran ∈ past, ∃ m previous, ran.result = .ok ⟨m, e⟩ ∧
      Transition e.role ran.operation.party ran.operation.kind previous e.state := by
  induction h with
  | opens => cases he
  | rests _ rested ih =>
    rw [rested.record?] at he
    exact ih he
  | @runs past before earlier version operation ih =>
    have hearlier : before.stores.record? e.id = some e →
        ∃ ran ∈ past ++ [⟨version, operation, (operation.run version env before).1⟩], ∃ m previous,
          ran.result = .ok ⟨m, e⟩ ∧
          Transition e.role ran.operation.party ran.operation.kind previous e.state := by
      intro hbefore
      obtain ⟨ran, hran, hwritten⟩ := ih hbefore
      exact ⟨ran, List.mem_append_left _ hran, hwritten⟩
    cases hrun : operation.run version env before with
    | mk result after =>
      rw [hrun] at he hearlier
      cases result with
      | error x =>
        rw [(Operation.run_error hrun).record?] at he
        exact hearlier he
      | ok outcome =>
        obtain ⟨previous, hstep⟩ := Operation.run_ok hrun
        rw [hstep.record?] at he
        split at he
        · cases he
          refine ⟨_, List.mem_append_right _ (.head _), outcome.message, previous, rfl, ?_⟩
          exact hstep.transition
        · exact hearlier he

end Chronicle

-- No message is stored under an identifier that has not been drawn.
theorem World.Backed.message?_fresh {env : Environment} {world : World} (h : world.Backed env)
    (names : Function.Injective env.exchangeName) (type : String) :
    world.stores.message? (env.exchangeName world.journal.exchanges) type = none := by
  rw [Stores.message?, Option.map_eq_none_iff, Option.eq_none_iff_forall_not_mem]
  intro s hs
  obtain ⟨hmem, hkey⟩ := (world.stores.messages.get?_eq_some_iff ..).1 hs
  obtain ⟨n, hlt, hname⟩ := h.drawn s hmem
  have hsame : n = world.journal.exchanges := names (hname.symm.trans (congrArg Prod.fst hkey))
  omega

-- An issuer's record that waits for a request or has just got one has been offered, or there is no
-- offer to be found for it.
def Exchange.Offered (e : Exchange) (past : List Ran) (world : World) : Prop :=
  (∃ ran ∈ past, ∃ o, ran.Completes .sender .offer o ∧ o.record.id = e.id) ∨
    world.stores.message? e.id (typeUri e.version .offer) = none

theorem Exchange.Offered.later {e e' : Exchange} {past more : List Ran} {before after : World}
    (h : e.Offered past before) (hid : e'.id = e.id) (hversion : e'.version = e.version)
    (kept : after.stores.message? e.id (typeUri e.version .offer) =
      before.stores.message? e.id (typeUri e.version .offer)) :
    e'.Offered (past ++ more) after := by
  rcases h with ⟨ran, hran, o, hcompletes, hrecord⟩ | hnone
  · exact .inl ⟨ran, List.mem_append_left _ hran, o, hcompletes, hrecord.trans hid.symm⟩
  · rw [← kept] at hnone
    exact .inr (by rw [hid, hversion]; exact hnone)

theorem Chronicle.offered {env : Environment} {past : List Ran} {world : World}
    (h : Chronicle env past world) (names : Function.Injective env.exchangeName)
    (routed : ∀ ran ∈ past, ran.Routed) {e : Exchange} (he : world.stores.record? e.id = some e)
    (hrole : e.role = .issuer) (hstate : e.state = .offerSent ∨ e.state = .requestReceived) :
    e.Offered past world := by
  induction h generalizing e with
  | opens => cases he
  | @rests past before after _ rested ih =>
    rw [rested.record?] at he
    have hbefore := ih routed he hrole hstate
    unfold Exchange.Offered Stores.message? at hbefore ⊢
    rw [rested.messages]
    exact hbefore
  | @runs past before earlier version operation ih =>
    obtain ⟨hbefore, hlast⟩ := Ran.routed_concat routed
    have hpreserves : before.Preserves (operation.run version env before).2 :=
      Operation.run_preserves names earlier.named hlast.addressed
    -- A record that was there before keeps what was to be found for it.
    have hkept : ∀ {old : Exchange}, before.stores.record? old.id = some old → old.role = .issuer →
        old.state = .offerSent ∨ old.state = .requestReceived → e.id = old.id →
        e.version = old.version → e.Offered (past ++ [⟨version, operation,
          (operation.run version env before).1⟩]) (operation.run version env before).2 := by
      intro old hold hissuer hwaiting hid hversion
      have hrank : Kind.offer.rank ≤ old.state.rank := by
        rcases hwaiting with h | h <;> rw [h] <;> decide
      exact (ih hbefore hold hissuer hwaiting).later hid hversion (hpreserves old hold .offer hrank)
    cases hrun : operation.run version env before with
    | mk result after =>
      rw [hrun] at he hkept
      cases result with
      | error x =>
        rw [(Operation.run_error hrun).record?] at he
        exact hkept he hrole hstate rfl rfl
      | ok outcome =>
        obtain ⟨previous, hstep⟩ := Operation.run_ok hrun
        rw [hstep.record?] at he
        split at he
        · cases he
          have hthis : operation.party = .sender → operation.kind = .offer →
              outcome.record.Offered (past ++ [⟨version, operation, .ok outcome⟩]) after :=
            fun hparty hkind => .inl
              ⟨_, List.mem_append_right _ (.head _), outcome, ⟨hparty, hkind, rfl⟩, rfl⟩
          have htransition := hstep.transition
          generalize hparty : operation.party = party, hkind : operation.kind = kind at htransition
          rcases hstate with hstate | hstate <;> rw [hrole, hstate] at htransition
          · cases htransition with
            | sendOffer => exact hthis hparty hkind
            | answerProposal => exact hthis hparty hkind
          · cases htransition with
            | receiveRequest =>
              obtain ⟨old, hold, horigin, hsent, -⟩ := hstep.moves _ rfl
              have hself := Stores.record?_self hold
              exact hkept hself (horigin.role.symm.trans hrole) (.inl hsent) horigin.id horigin.version
            | openByRequest =>
              -- A request that opens the exchange finds nothing stored, and what it stores is no
              -- offer.
              right
              have htype : outcome.message.type ≠ typeUri outcome.record.version .offer := by
                intro hsame
                have hoffer := (typeUri_inj hsame).2
                rw [hlast.addressed.kind hstep.carries, hkind] at hoffer
                cases hoffer
              have hfresh := (earlier.backed names hbefore).message?_fresh names
                (typeUri outcome.record.version .offer)
              rw [← (hstep.opens rfl).id] at hfresh
              rw [Stores.message?, hstep.messages, Table.get?_put, if_neg]
              · exact hfresh
              · exact fun hkey => htype (congrArg Prod.snd hkey)
        · exact hkept he hrole hstate rfl rfl

def Call.isIssuance : Call → Bool
  | .createCredential .. => true
  | _ => false

-- What a credential is made from: the record with its stored messages, and what has been looked up
-- right before.
structure Issues (env : Environment) (s : Stores) (id : String) (calls : List Call)
    (definition : IssuerDefinition) (offer request : String) (claims : List (String × String))
    (revocation : Option RevocationConfig) : Prop where
  record : ∃ e, s.record? id = some e ∧ e.role = .issuer ∧ e.state = .requestReceived ∧
    (∃ m, s.Holds e .offer m ∧ e.version.payload m .offer = .ok offer) ∧
    (∃ m, s.Holds e .request m ∧ e.version.payload m .request = .ok request) ∧
    claims = e.claims
  lookedUp : ∃ terms, OfferPayload.ofText offer = .ok terms ∧ ∃ earlier,
    calls = earlier ++ [.definition terms.definition, .revocation terms.definition] ∧
      env.answer earlier.length (.definition terms.definition) = .ok definition ∧
      env.answer (earlier.length + 1) (.revocation terms.definition) = .ok revocation

namespace Issuer

open Inquiry

variable {env : Environment} {s : Stores} {j : Journal}

-- What has been asked for when a credential is made.
def Backs (env : Environment) (s : Stores) (id : String) (calls : List Call) (c : Call) : Prop :=
  ∀ definition offer request claims revocation,
    c = .createCredential definition offer request claims revocation →
      Issues env s id calls definition offer request claims revocation

theorem backs_of_other {id : String} {calls : List Call} {c : Call} (h : c.isIssuance = false) :
    Backs env s id calls c := by
  rintro _ _ _ _ _ rfl
  cases h

theorem asks_other {id : String} {c : Call} (h : c.isIssuance = false) :
    Asks env s j (call c) (Backs env s id) := .call (backs_of_other h)

theorem asks_record {id : String} (exchange : String) :
    Asks env s j (record exchange) (Backs env s id) := by
  refine .bind (.bind (asks_other rfl) fun shown _ _ => .bind (.of_calls rfl) fun _ _ _ => .pure _) ?_
  intro found between _
  cases found with
  | none => exact .fail _
  | some e => exact .pure e

theorem asks_message {id : String} (e : Exchange) (kind : Kind) :
    Asks env s j (message e kind) (Backs env s id) := by
  have hfind : Asks env s j (message? e kind) (Backs env s id) := by
    refine .bind (asks_other rfl) fun _ _ _ => .bind (.of_calls rfl) fun stores _ _ => ?_
    split
    · exact .pure _
    · exact .bind (.lift _) fun m _ _ => .pure _
  refine .bind hfind fun found _ _ => ?_
  cases found with
  | none => exact .fail _
  | some m => exact .pure m

theorem issue_asks (version : Version) (exchange : String) (comment : Option String)
    (autoAccept : Option AutoAccept) :
    Asks env s j (issue version exchange comment autoAccept) (Backs env s exchange) := by
  refine .bind (.bind (asks_record exchange) fun _ _ _ => asks_record exchange) ?_
  intro e _ hlocked
  have hstored := lockedRecord_ok hlocked
  refine .bind (.lift _) fun _ _ hversion => .bind (.lift _) fun _ _ hrole => ?_
  refine .bind (.lift _) fun _ _ hstate => ?_
  obtain ⟨hversion, -⟩ := lift_eq_ok_iff.1 hversion
  obtain ⟨hrole, -⟩ := lift_eq_ok_iff.1 hrole
  obtain ⟨hstate, -⟩ := lift_eq_ok_iff.1 hstate
  refine .bind (asks_message e .offer) fun offer _ hoffer => ?_
  refine .bind (asks_message e .request) fun request _ hrequest => ?_
  refine .bind (.lift _) fun offerPayload _ hofferPayload => ?_
  refine .bind (.lift _) fun requestPayload _ hrequestPayload => ?_
  refine .bind (.lift _) fun terms asked hterms => ?_
  obtain ⟨hofferPayload, -⟩ := lift_eq_ok_iff.1 hofferPayload
  obtain ⟨hrequestPayload, -⟩ := lift_eq_ok_iff.1 hrequestPayload
  obtain ⟨hterms, -⟩ := lift_eq_ok_iff.1 hterms
  refine .bind (asks_other rfl) fun definition _ hdefinition => ?_
  refine .bind (asks_other rfl) fun revocation _ hrevocation => ?_
  obtain ⟨hanswer, rfl⟩ := ask_eq_ok_iff.1 hdefinition
  obtain ⟨hanswer', rfl⟩ := ask_eq_ok_iff.1 hrevocation
  refine .bind (.call ?_) fun credential _ _ => ?_
  · rintro _ _ _ _ _ hsame
    cases hsame
    rw [← Exchange.assertVersion_ok hversion] at hofferPayload hrequestPayload
    refine ⟨⟨e, hstored, Exchange.assertRole_ok hrole, Exchange.assertState_ok hstate,
      ⟨offer, message_ok hoffer, hofferPayload⟩, ⟨request, message_ok hrequest, hrequestPayload⟩,
      rfl⟩, terms, hterms, asked.calls, ?_, hanswer, ?_⟩
    · simp [Journal.asked]
    · simpa [Journal.asked] using hanswer'
  · exact .bind (.of_calls rfl) fun _ _ _ => .pure _

end Issuer

section Claims

variable (e : Exchange) (name : String)

theorem Exchange.claims_nodup : (e.claims.map Prod.fst).Nodup := by
  have hsorted : (e.claims.map Prod.fst).Pairwise (· < ·) := Json.sorted_ordered _
  refine hsorted.imp ?_
  rintro name _ hless rfl
  exact String.lt_irrefl name hless

theorem Attribute.lookup_map (attributes : List Attribute) :
    Json.lookup name (attributes.map fun a => (a.name, a.value)) =
      (attributes.find? (·.name = name)).map Attribute.value := by
  induction attributes with
  | nil => rfl
  | cons a rest ih =>
    by_cases h : a.name = name
    · simp [Json.lookup, h]
    · simp [Json.lookup, h, ih]

-- The claim of a name is the value of the last attribute of this name.
theorem Exchange.lookup_claims :
    Json.lookup name e.claims =
      ((e.attributes.filter (·.name = name)).getLast?).map Attribute.value := by
  rw [claims, Json.lookup_ordered, ← List.map_reverse, Attribute.lookup_map,
    List.getLast?_eq_head?_reverse, ← List.filter_reverse, List.head?_filter]

end Claims

-- What a credential for a record has to be made from: the offer that was made for it, the request
-- that was accepted on it, what the offer lists, and the definition that the offer names.
structure Faithful (env : Environment) (past : List Ran) (id : String) (calls : List Call)
    (definition : IssuerDefinition) (offer request : String) (claims : List (String × String))
    (revocation : Option RevocationConfig) : Prop where
  offered : ∃ o, (∃ ran ∈ past, ran.Completes .sender .offer o) ∧ o.record.id = id ∧
    (∀ ran ∈ past, ∀ o', ran.Completes .sender .offer o' → o'.record.id = id →
      o'.message = o.message) ∧
    o.record.version.payload o.message .offer = .ok offer ∧
    (claims.map Prod.fst).Nodup ∧
    ∀ name, Json.lookup name claims = (((o.record.version.attributes o.message).filter
      (·.name = name)).getLast?).map Attribute.value
  requested : ∃ o, (∃ ran ∈ past, ran.Completes .receiver .request o) ∧ o.record.id = id ∧
    (∀ ran ∈ past, ∀ o', ran.Completes .receiver .request o' → o'.record.id = id →
      o'.message = o.message) ∧
    o.record.version.payload o.message .request = .ok request
  lookedUp : ∃ terms, OfferPayload.ofText offer = .ok terms ∧ ∃ earlier,
    calls = earlier ++ [.definition terms.definition, .revocation terms.definition] ∧
      env.answer earlier.length (.definition terms.definition) = .ok definition ∧
      env.answer (earlier.length + 1) (.revocation terms.definition) = .ok revocation

namespace Chronicle

variable {env : Environment} {past : List Ran} {world : World}

theorem kind_eq (h : Chronicle env past world) (routed : ∀ ran ∈ past, ran.Routed) {ran : Ran}
    (hran : ran ∈ past) {party : Party} {kind : Kind} {o : Outcome}
    (hdone : ran.Completes party kind o) : o.message.kind = kind := by
  obtain ⟨-, rfl, hok⟩ := hdone
  obtain ⟨before, after, hrun⟩ := h.exists_run hran hok
  obtain ⟨previous, hstep⟩ := Operation.run_ok hrun
  exact (Operation.Routed.addressed (routed ran hran)).kind hstep.carries

-- There is one message of a kind for a record, however often it has been written.
theorem message_eq (h : Chronicle env past world) (names : Function.Injective env.exchangeName)
    (routed : ∀ ran ∈ past, ran.Routed) {ran ran' : Ran} (hran : ran ∈ past) (hran' : ran' ∈ past)
    {party party' : Party} {kind : Kind} {o o' : Outcome} (hdone : ran.Completes party kind o)
    (hdone' : ran'.Completes party' kind o') (hid : o'.record.id = o.record.id) :
    o'.message = o.message := by
  have hstays := h.stays names routed hran hdone.2.2
  have hstays' := h.stays names routed hran' hdone'.2.2
  have hkind := h.kind_eq routed hran hdone
  have hkind' := h.kind_eq routed hran' hdone'
  obtain ⟨e, he, honward⟩ := hstays.record
  obtain ⟨e', he', honward'⟩ := hstays'.record
  rw [hid, he] at he'
  cases he'
  have hversion := honward'.origin.version.symm.trans honward.origin.version
  have hmessage := hstays'.message
  rw [hid, Message.type, hstays'.belongs.version, hversion, hkind', ← hkind] at hmessage
  exact hstays.holds_eq rfl rfl ⟨_, hmessage, Message.ofJson_toJson hstays'.belongs.plain⟩

-- What is in hand when a credential is made is what has been offered and requested.
theorem faithful (h : Chronicle env past world) (names : Function.Injective env.exchangeName)
    (routed : ∀ ran ∈ past, ran.Routed) {id : String} {calls : List Call}
    {definition : IssuerDefinition} {offer request : String} {claims : List (String × String)}
    {revocation : Option RevocationConfig}
    (issues : Issues env world.stores id calls definition offer request claims revocation) :
    Faithful env past id calls definition offer request claims revocation := by
  obtain ⟨⟨e, he, hrole, hstate, ⟨m, hm, hoffer⟩, ⟨m', hm', hrequest⟩, rfl⟩, hlookedUp⟩ := issues
  have hid : e.id = id := (Stores.record?_eq_some_iff.1 he).2
  have hself := Stores.record?_self he
  refine ⟨?_, ?_, hlookedUp⟩
  · rcases h.offered names routed hself hrole (.inr hstate) with ⟨ran, hran, o, hdone, hrecord⟩ | hnone
    · obtain ⟨e', he', hfills⟩ := h.fills names routed hran hdone.2.1 hdone.2.2
      have hstays := h.stays names routed hran hdone.2.2
      rw [hrecord, hself] at he'
      cases he'
      have hversion := hfills.onward.origin.version
      rw [← hfills.offer] at hm
      rw [hstays.holds_eq hrecord.symm hversion hm, hversion] at hoffer
      refine ⟨o, ⟨ran, hran, hdone⟩, hrecord.trans hid, ?_, hoffer, e.claims_nodup, ?_⟩
      · intro ran' hran' o' hdone' hid'
        exact h.message_eq names routed hran hran' hdone hdone'
          (hid'.trans (hrecord.trans hid).symm)
      · intro name
        rw [← hversion, ← hfills.attributes]
        exact e.lookup_claims name
    · obtain ⟨value, hvalue, -⟩ := hm
      cases hvalue.symm.trans hnone
  · obtain ⟨ran, hran, m, previous, hok, htransition⟩ := h.written hself
    have hdone : ran.Completes .receiver .request ⟨m, e⟩ := by
      rw [hrole, hstate] at htransition
      generalize hparty : ran.operation.party = party, hkind : ran.operation.kind = kind at htransition
      cases htransition with
      | receiveRequest => exact ⟨hparty, hkind, hok⟩
      | openByRequest => exact ⟨hparty, hkind, hok⟩
    have hstays := h.stays names routed hran hok
    rw [← h.kind_eq routed hran hdone] at hm'
    rw [hstays.holds_eq rfl rfl hm'] at hrequest
    refine ⟨⟨m, e⟩, ⟨ran, hran, hdone⟩, hid, ?_, hrequest⟩
    intro ran' hran' o' hdone' hid'
    exact h.message_eq names routed hran hran' hdone hdone' (hid'.trans hid.symm)

-- Whatever an issuer has been through, a credential is made from the one offer that was sent and
-- the one request that was accepted for the record. And whoever takes in this offer has the
-- attributes of the issuer's record, both sides at whatever point they are.
theorem issued_as_offered (names : Function.Injective env.exchangeName)
    (h : Chronicle env past world) (routed : ∀ ran ∈ past, ran.Routed) :
    (∀ version id comment autoAccept,
      let after := ((Operation.issue id comment autoAccept).run version env world).2
      ∀ n definition offer request claims revocation, world.journal.calls.length ≤ n →
        after.journal.calls[n]? =
            some (.createCredential definition offer request claims revocation) →
          Faithful env past id (after.journal.calls.take n) definition offer request claims
            revocation) ∧
      ∀ ran ∈ past, ∀ o, ran.Completes .sender .offer o →
        ∀ env' past' world', Function.Injective env'.exchangeName → Chronicle env' past' world' →
          (∀ ran ∈ past', ran.Routed) → ∀ ran' ∈ past', ∀ o', ran'.Completes .receiver .offer o' →
            Message.ofJson o.message.toJson = .ok o'.message →
              ∃ e e', world.stores.record? o.record.id = some e ∧
                world'.stores.record? o'.record.id = some e' ∧ e'.attributes = e.attributes := by
  refine ⟨?_, ?_⟩
  · intro version id comment autoAccept after n definition offer request claims revocation hn hcall
    have hbacks := Operation.run_asks (Issuer.issue_asks version id comment autoAccept)
      (fun calls c hc => Issuer.backs_of_other (by cases c <;> first | rfl | cases hc)) hn hcall
    exact h.faithful names routed (hbacks _ _ _ _ _ rfl)
  · intro ran hran o hdone env' past' world' names' h' routed' ran' hran' o' hdone' hcarried
    obtain ⟨e, he, hfills⟩ := h.fills names routed hran hdone.2.1 hdone.2.2
    obtain ⟨e', he', hfills'⟩ := h'.fills names' routed' hran' hdone'.2.1 hdone'.2.2
    have hbelongs := (h.stays names routed hran hdone.2.2).belongs
    have hbelongs' := (h'.stays names' routed' hran' hdone'.2.2).belongs
    rw [Message.ofJson_toJson hbelongs.plain] at hcarried
    have hsame : o.message = o'.message := Except.ok.inj hcarried
    refine ⟨e, e', he, he', ?_⟩
    have hversion : e'.version = e.version := by
      rw [hfills'.onward.origin.version, hfills.onward.origin.version, ← hbelongs'.version,
        ← hbelongs.version, hsame]
    rw [hfills'.attributes, hfills.attributes, hversion, hsame]

-- An environment as the steady one, with offers that can be read.
def minting : Environment :=
  { Environment.steady 'a' with
    answer := fun n call =>
      match call with
      | .createOffer schema definition _ =>
        .ok (Json.object [("schema_id", .str schema), ("cred_def_id", .str definition)]).text
      | call => (Environment.steady 'a').answer n call }

-- An offer that lists a name twice, the request that answers it, and the credential.
theorem issued_as_offered_minted :
    let details : OfferDetails :=
      ⟨⟨none, none, none⟩, none, [.plain "name" "first", .plain "age" "7", .plain "name" "last"]⟩
    let request := Version.v1.request (.reply "m" "a") "request" (.openingOffer "a")
    let world := minting.live World.empty
      [.obey .v1 (.offer (some "connection") "definition" details none),
        .receive request.toJson.text (some (.complete "connection"))]
    ∃ past, Chronicle minting past world ∧ ∃ calls definition offer request claims revocation,
      Faithful minting past "e" calls definition offer request claims revocation := by
  intro details request world
  have hmade : (((Operation.issue "e" none none).run .v1 minting world).2.journal.calls.drop
      world.journal.calls.length).any Call.isIssuance = true := by decide +kernel
  obtain ⟨past, hpast, routed⟩ : ∃ past, Chronicle minting past world ∧ ∀ ran ∈ past, ran.Routed := by
    refine minting.live_chronicle_routed fun deed hdeed => ?_
    rcases List.mem_pair.1 hdeed with rfl | rfl <;> trivial
  clear_value world
  obtain ⟨c, hmem, hc⟩ := List.any_eq_true.1 hmade
  obtain ⟨k, hk⟩ := List.mem_iff_getElem?.1 hmem
  rw [List.getElem?_drop] at hk
  have names : Function.Injective minting.exchangeName := Environment.steady_fresh 'a'
  have hissued := (issued_as_offered names hpast routed).1
  cases c with
  | createCredential definition offer request claims revocation =>
    exact ⟨past, hpast, _, _, _, _, _, _,
      hissued .v1 "e" none none _ _ _ _ _ _ (Nat.le_add_right _ _) hk⟩
  | _ => cases hc

end Chronicle

end CredentialIssuance
