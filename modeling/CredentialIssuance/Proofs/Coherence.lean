import CredentialIssuance.Proofs.Joint

namespace CredentialIssuance

namespace Joint

-- The records of one side on a thread.
def onThread (s : Joint) (side : Side) (thread : String) : List Exchange :=
  (s.world side).stores.onThread thread

-- How far one side has come on a thread, if it has a record there.
def state? (s : Joint) (side : Side) (thread : String) : Option State :=
  (s.onThread side thread).head?.map Exchange.state

-- As `state?`, but without saying which record counts if there are several.
def Stands (s : Joint) (side : Side) (thread : String) : Option State → Prop
  | none => s.onThread side thread = []
  | some state => ∃ e ∈ s.onThread side thread, e.state = state

-- Seen from one side, whose records on the thread have the role.
structure Paired (s : Joint) (side : Side) (role : Role) (thread : String) : Prop where
  own : ∀ e ∈ s.onThread side thread, e.role = role
  others : ∀ e ∈ s.onThread side.other thread, e.role = role.other
  agrees : ∀ own others, s.Stands side thread own → s.Stands side.other thread others →
    role.Agrees own others

-- Some agent has drawn the name.
def Drawn (p : Parties) (s : Joint) (thread : String) : Prop :=
  ∃ side, ∃ n < (s.world side).journal.threads, thread = (p.env side).threadName n

-- What holds of two agents and of the messages between them at any time.
structure Coherent (p : Parties) (s : Joint) : Prop where
  named : ∀ side, (s.world side).Named (p.env side)
  drawn : ∀ side, ∀ e ∈ s.records side, s.Drawn p e.threadId
  single : ∀ side, ∀ e ∈ s.records side, ∀ e' ∈ s.records side, e.threadId = e'.threadId → e = e'
  bound : ∀ side, ∀ e ∈ s.records side, e.role = .holder →
    e.connectionId = (p.connection side).id
  paired : ∀ side, ∀ e ∈ s.records side, s.Paired side e.role e.threadId
  -- A message has been sent for a record that is there and has come as far as the message says.
  backed : ∀ side, ∀ m ∈ s.sent side, ∃ e ∈ s.onThread side m.threadId,
    e.state ∈ m.kind.past e.role

section Views

variable {s s' : Joint} {side : Side} {role : Role} {thread : String} {e : Exchange}

theorem mem_onThread : e ∈ s.onThread side thread ↔ e ∈ s.records side ∧ e.threadId = thread :=
  Stores.mem_onThread

theorem stands_state? (s : Joint) (side : Side) (thread : String) :
    s.Stands side thread (s.state? side thread) := by
  unfold state?
  cases h : s.onThread side thread with
  | nil => exact h
  | cons e rest => exact ⟨e, h ▸ List.mem_cons_self, rfl⟩

theorem Paired.flip (h : s.Paired side role thread) : s.Paired side.other role.other thread := by
  refine ⟨h.others, ?_, ?_⟩
  · rw [side.other_other, role.other_other]
    exact h.own
  · intro own others hown hothers
    rw [side.other_other] at hothers
    exact Role.agrees_other.2 (h.agrees others own hothers hown)

theorem Stands.not_mem (h : s.Stands side thread none) (e : Exchange) :
    e ∉ s.onThread side thread := by
  rw [show s.onThread side thread = [] from h]
  exact List.not_mem_nil

-- Only the records on the thread matter.
theorem Stands.congr (same : ∀ e, e ∈ s'.onThread side thread ↔ e ∈ s.onThread side thread)
    {own : Option State} (h : s'.Stands side thread own) : s.Stands side thread own := by
  cases own with
  | none =>
    have hnone : ∀ e, e ∉ s.onThread side thread := by
      intro e he
      exact h.not_mem e ((same e).2 he)
    exact List.eq_nil_iff_forall_not_mem.2 hnone
  | some state =>
    obtain ⟨e, he, hstate⟩ := h
    exact ⟨e, (same e).1 he, hstate⟩

theorem Paired.congr
    (same : ∀ side e, e ∈ s'.onThread side thread ↔ e ∈ s.onThread side thread)
    (h : s.Paired side role thread) : s'.Paired side role thread := by
  refine ⟨?_, ?_, ?_⟩
  · intro e he
    exact h.own e ((same side e).1 he)
  · intro e he
    exact h.others e ((same side.other e).1 he)
  · intro own others hown hothers
    exact h.agrees own others (hown.congr (same side)) (hothers.congr (same side.other))

theorem Drawn.mono {p : Parties}
    (hthreads : ∀ side, (s.world side).journal.threads ≤ (s'.world side).journal.threads)
    (h : s.Drawn p thread) : s'.Drawn p thread := by
  obtain ⟨side, n, hlt, hname⟩ := h
  have hle := hthreads side
  exact ⟨side, n, by omega, hname⟩

variable {p : Parties} {own : Option State}

theorem Coherent.stands_eq (h : s.Coherent p) (hown : s.Stands side thread own)
    (he : e ∈ s.onThread side thread) : own = some e.state := by
  cases own with
  | none => exact absurd he (hown.not_mem e)
  | some state =>
    obtain ⟨e', he', rfl⟩ := hown
    obtain ⟨hmem, hthread⟩ := mem_onThread.1 he
    obtain ⟨hmem', hthread'⟩ := mem_onThread.1 he'
    rw [h.single side e hmem e' hmem' (hthread.trans hthread'.symm)]

theorem stands_none (hown : s.Stands side thread own) (h : s.onThread side thread = []) :
    own = none := by
  cases own with
  | none => rfl
  | some state =>
    obtain ⟨e, he, -⟩ := hown
    rw [h] at he
    cases he

-- The next thread an agent opens is known to neither.
theorem Coherent.threadId_ne (fresh : p.Fresh) (h : s.Coherent p) (side side' : Side)
    (he : e ∈ s.records side') :
    e.threadId ≠ (p.env side).threadName (s.world side).journal.threads := by
  intro hsame
  obtain ⟨drawer, n, hlt, hname⟩ := h.drawn side' e he
  have hdraw : (drawer, n) = (side, (s.world side).journal.threads) :=
    fresh.threads (hname.symm.trans hsame)
  cases hdraw
  omega

end Views

section Step

variable {p : Parties} {s : Joint} {side : Side} {after : World} {version : Version}
  {operation : Operation} {outcome : Outcome} {previous : Option State} {messages : List Message}
  (fresh : p.Fresh) (h : s.Coherent p) (allowed : s.Allowed p side operation)
  (hstep : Step (p.env side) (s.world side) after version operation outcome previous)

include h allowed hstep in
-- A message that is taken in has been sent for a record of the other side.
theorem Coherent.sender (received : operation.party = .receiver) :
    ∃ e ∈ s.onThread side.other outcome.record.threadId,
      e.state ∈ operation.kind.past e.role := by
  cases allowed with
  | call own _ =>
    rw [received] at own
    cases own
  | @receive m sent =>
    have hmessage : outcome.message = m := hstep.carries
    have hthread : m.threadId = outcome.record.threadId := hmessage ▸ hstep.thread
    have hbacked := h.backed side.other m sent
    rw [hthread] at hbacked
    exact hbacked

include hstep in
-- The record that a step moves, as it is before the step.
theorem exists_old {state : State} (hprevious : previous = some state) :
    ∃ old ∈ s.onThread side outcome.record.threadId, old.id = outcome.record.id ∧
      old.role = outcome.record.role ∧ old.state = state ∧
      (outcome.record.role = .holder → old.connectionId = outcome.record.connectionId) := by
  obtain ⟨old, hold, horigin, hstate, hconnection⟩ := hstep.moves state hprevious
  obtain ⟨hmem, hid⟩ := Stores.record?_eq_some_iff.1 hold
  exact ⟨old, mem_onThread.2 ⟨hmem, horigin.threadId.symm⟩, hid, horigin.role.symm, hstate,
    hconnection⟩

theorem known_or_opening (previous : Option State) (party : Party) :
    (previous = none → party = .receiver) ∨ previous = none ∧ party = .sender := by
  cases party with
  | sender => cases previous <;> simp
  | receiver => exact .inl fun _ => rfl

include h allowed hstep in
-- Unless the step opens a thread, the two sides are paired on it already, and this side has the
-- role of the record that is written.
theorem Coherent.paired_before (known : previous = none → operation.party = .receiver) :
    s.Paired side outcome.record.role outcome.record.threadId := by
  cases hprevious : previous with
  | none =>
    have hreceived := known hprevious
    obtain ⟨e, he, hsent⟩ := h.sender allowed hstep hreceived
    have htransition := hstep.transition
    rw [hprevious, hreceived] at htransition
    have hrole := htransition.role_of_opening hsent
    obtain ⟨hmem, hthread⟩ := mem_onThread.1 he
    have hpaired := (h.paired side.other e hmem).flip
    rw [side.other_other, hrole, Role.other_other, hthread] at hpaired
    exact hpaired
  | some state =>
    obtain ⟨old, hold, -, hrole, -⟩ := exists_old hstep hprevious
    obtain ⟨hmem, hthread⟩ := mem_onThread.1 hold
    have hpaired := h.paired side old hmem
    rw [hrole, hthread] at hpaired
    exact hpaired

include fresh h allowed hstep in
-- A record is opened only on a thread where its side has none.
theorem Coherent.vacant (hprevious : previous = none) :
    s.onThread side outcome.record.threadId = [] := by
  refine List.eq_nil_iff_forall_not_mem.2 fun e he => ?_
  obtain ⟨hmem, hthread⟩ := mem_onThread.1 he
  have hopens := hstep.opens hprevious
  cases hparty : operation.party with
  | sender =>
    have hstarted := (hopens.started hparty).1
    exact h.threadId_ne fresh side side hmem (hthread.trans hstarted)
  | receiver =>
    have hpaired := h.paired_before allowed hstep fun _ => hparty
    have hrole := hpaired.own e he
    obtain ⟨hholder, hother⟩ := hopens.alone hparty e hmem hthread hrole
    have hconnection := allowed.named _ (hopens.connection hholder)
    have hbound := h.bound side e hmem (hrole.trans hholder)
    exact hother (hbound.trans hconnection.symm)

include fresh h allowed hstep in
-- Where the side stands before the step is the previous state of the step.
theorem Coherent.stands_before : s.Stands side outcome.record.threadId previous := by
  cases hprevious : previous with
  | none => exact h.vacant fresh allowed hstep hprevious
  | some state =>
    obtain ⟨old, hold, -, -, hstate, -⟩ := exists_old hstep hprevious
    exact ⟨old, hold, hstate⟩

include fresh h hstep in
-- A thread that a step opens by sending is not known to the other side.
theorem Coherent.vacant_other (hprevious : previous = none) (hsent : operation.party = .sender) :
    s.onThread side.other outcome.record.threadId = [] := by
  refine List.eq_nil_iff_forall_not_mem.2 fun e he => ?_
  obtain ⟨hmem, hthread⟩ := mem_onThread.1 he
  have hstarted := ((hstep.opens hprevious).started hsent).1
  exact h.threadId_ne fresh side side.other hmem (hthread.trans hstarted)

include h allowed hstep in
theorem Coherent.grounded {others : Option State}
    (hothers : s.Stands side.other outcome.record.threadId others) :
    Transition.Grounded outcome.record.role operation.party operation.kind others := by
  intro hreceived
  obtain ⟨e, he, hsent⟩ := h.sender allowed hstep hreceived
  have hpaired := h.paired_before allowed hstep fun _ => hreceived
  rw [hpaired.others e he] at hsent
  exact ⟨e.state, h.stands_eq hothers he, hsent⟩

include fresh h allowed hstep in
-- The record that is written agrees with the record of the other side.
theorem Coherent.agrees_after {others : Option State}
    (hothers : s.Stands side.other outcome.record.threadId others) :
    outcome.record.role.Agrees (some outcome.record.state) others := by
  have htransition := hstep.transition
  rcases known_or_opening previous operation.party with hknown | ⟨hprevious, hsent⟩
  · have hpaired := h.paired_before allowed hstep hknown
    have hbefore := hpaired.agrees previous others (h.stands_before fresh allowed hstep) hothers
    exact htransition.agrees hbefore (h.grounded allowed hstep hothers)
  · have hnone := stands_none hothers (h.vacant_other fresh hstep hprevious hsent)
    rw [hprevious, hsent] at htransition
    rw [hnone]
    exact htransition.agrees_of_opening

include fresh h allowed hstep in
-- The roles on the thread are opposite after the step.
theorem Coherent.others_after :
    ∀ e ∈ s.onThread side.other outcome.record.threadId, e.role = outcome.record.role.other := by
  intro e he
  rcases known_or_opening previous operation.party with hknown | ⟨hprevious, hsent⟩
  · exact (h.paired_before allowed hstep hknown).others e he
  · rw [h.vacant_other fresh hstep hprevious hsent] at he
    cases he

include fresh h allowed hstep in
-- What a side has after a step: the record that is written, and all its records on other threads.
theorem Coherent.mem_put (e : Exchange) :
    e ∈ after.stores.records.entries ↔
      e = outcome.record ∨ e ∈ s.records side ∧ e.threadId ≠ outcome.record.threadId := by
  rw [hstep.records, Table.mem_put_iff]
  refine or_congr_right (and_congr_right fun hmem => not_congr ?_)
  constructor
  · intro hid
    have hstored := Stores.record?_eq_some_iff.2 ⟨hmem, hid⟩
    have hprevious := hstep.previous_eq ((h.named side).fresh (fresh.exchanges side))
    rw [hstored, Option.map_some] at hprevious
    obtain ⟨old, hold, horigin, -⟩ := hstep.moves e.state hprevious.symm
    have hsame : old = e := Option.some.inj (hold.symm.trans hstored)
    exact hsame ▸ horigin.threadId.symm
  · intro hthread
    have he := mem_onThread.2 ⟨hmem, hthread⟩
    cases hprevious : previous with
    | none =>
      rw [h.vacant fresh allowed hstep hprevious] at he
      cases he
    | some state =>
      obtain ⟨old, hold, hid, -⟩ := exists_old hstep hprevious
      obtain ⟨hmem', hthread'⟩ := mem_onThread.1 hold
      rw [h.single side e hmem old hmem' (hthread.trans hthread'.symm), hid]

include fresh h allowed hstep in
theorem Coherent.mem_onThread_self (messages : List Message) (e : Exchange) :
    e ∈ (s.move side after messages).onThread side outcome.record.threadId ↔
      e = outcome.record := by
  rw [mem_onThread, records, move_world_self, h.mem_put fresh allowed hstep]
  constructor
  · rintro ⟨rfl | ⟨-, hne⟩, hthread⟩
    · rfl
    · exact absurd hthread hne
  · rintro rfl
    exact ⟨.inl rfl, rfl⟩

include fresh h allowed hstep in
-- Nothing changes on any other thread.
theorem Coherent.mem_onThread_elsewhere {thread : String}
    (hthread : thread ≠ outcome.record.threadId) (side' : Side) (e : Exchange) :
    e ∈ (s.move side after messages).onThread side' thread ↔ e ∈ s.onThread side' thread := by
  rcases side.eq_or_eq_other side' with rfl | rfl
  · rw [mem_onThread, mem_onThread, records, move_world_self, h.mem_put fresh allowed hstep]
    constructor
    · rintro ⟨rfl | ⟨hmem, -⟩, hsame⟩
      · exact absurd hsame.symm hthread
      · exact ⟨hmem, hsame⟩
    · rintro ⟨hmem, rfl⟩
      exact ⟨.inr ⟨hmem, hthread⟩, rfl⟩
  · rw [onThread, move_world_other, onThread]

include fresh h allowed hstep in
theorem Coherent.paired_after (messages : List Message) :
    (s.move side after messages).Paired side outcome.record.role outcome.record.threadId := by
  have hself := h.mem_onThread_self fresh allowed hstep messages
  refine ⟨?_, ?_, ?_⟩
  · intro e he
    rw [(hself e).1 he]
  · intro e he
    rw [onThread, move_world_other] at he
    exact h.others_after fresh allowed hstep e he
  · intro own others hown hothers
    have hown' : own = some outcome.record.state := by
      cases own with
      | none => exact absurd ((hself outcome.record).2 rfl) (hown.not_mem outcome.record)
      | some state =>
        obtain ⟨e, he, rfl⟩ := hown
        rw [(hself e).1 he]
    rw [hown']
    refine h.agrees_after fresh allowed hstep (hothers.congr fun e => ?_)
    rw [onThread, move_world_other, onThread]

include fresh h allowed hstep in
-- What a message says its sender has done is still true after the step.
theorem Coherent.past_after {kind : Kind} {e : Exchange}
    (he : e ∈ s.onThread side outcome.record.threadId) (sent : e.state ∈ kind.past e.role) :
    outcome.record.state ∈ kind.past outcome.record.role := by
  have hprevious := h.stands_eq (h.stands_before fresh allowed hstep) he
  have hknown : previous = none → operation.party = .receiver := by
    intro hnone
    rw [hprevious] at hnone
    cases hnone
  have hpaired := h.paired_before allowed hstep hknown
  have hothers := s.stands_state? side.other outcome.record.threadId
  have hbefore := hpaired.agrees _ _ (h.stands_before fresh allowed hstep) hothers
  have htransition := hstep.transition
  rw [hprevious] at htransition hbefore
  rw [hpaired.own e he] at sent
  exact htransition.past hbefore (h.grounded allowed hstep hothers) sent

include h allowed hstep in
theorem Coherent.exists_known (known : previous = none → operation.party = .receiver) :
    ∃ side' e, e ∈ s.onThread side' outcome.record.threadId := by
  cases hprevious : previous with
  | none =>
    obtain ⟨e, he, -⟩ := h.sender allowed hstep (known hprevious)
    exact ⟨side.other, e, he⟩
  | some state =>
    obtain ⟨old, hold, -⟩ := exists_old hstep hprevious
    exact ⟨side, old, hold⟩

theorem named_move (h : ∀ side, (s.world side).Named (p.env side))
    (hafter : after.Named (p.env side)) (messages : List Message) (side' : Side) :
    ((s.move side after messages).world side').Named (p.env side') := by
  rcases side.eq_or_eq_other side' with rfl | rfl
  · rw [move_world_self]
    exact hafter
  · rw [move_world_other]
    exact h _

-- Names that have been drawn stay drawn.
theorem drawn_move (hthreads : (s.world side).journal.threads ≤ after.journal.threads)
    {thread : String} (h : s.Drawn p thread) : (s.move side after messages).Drawn p thread := by
  refine h.mono fun side' => ?_
  rcases side.eq_or_eq_other side' with rfl | rfl
  · rw [move_world_self]
    exact hthreads
  · exact Nat.le_of_eq (by rw [move_world_other])

include h allowed hstep in
theorem Coherent.drawn_after :
    (s.move side after messages).Drawn p outcome.record.threadId := by
  rcases known_or_opening previous operation.party with hknown | ⟨hprevious, hsent⟩
  · obtain ⟨side', e, he⟩ := h.exists_known allowed hstep hknown
    obtain ⟨hmem, hthread⟩ := mem_onThread.1 he
    rw [← hthread]
    exact drawn_move hstep.threads (h.drawn side' e hmem)
  · obtain ⟨hthread, hcount⟩ := (hstep.opens hprevious).started hsent
    refine ⟨side, (s.world side).journal.threads, ?_, hthread⟩
    rw [move_world_self, hcount]
    exact Nat.lt_succ_self _

include h allowed hstep in
theorem Coherent.bound_after (hholder : outcome.record.role = .holder) :
    outcome.record.connectionId = (p.connection side).id := by
  cases hprevious : previous with
  | none => exact allowed.named _ ((hstep.opens hprevious).connection hholder)
  | some state =>
    obtain ⟨old, hold, -, hrole, -, hconnection⟩ := exists_old hstep hprevious
    have hbound := h.bound side old (mem_onThread.1 hold).1 (hrole.trans hholder)
    exact (hconnection hholder).symm.trans hbound

include fresh h allowed hstep in
theorem Coherent.backed_after
    (own : ∀ m ∈ messages, operation.party = .sender ∧ m = outcome.message) {m : Message}
    (hm : m ∈ s.sent side ++ messages) :
    ∃ e ∈ (s.move side after messages).onThread side m.threadId, e.state ∈ m.kind.past e.role := by
  have hrecord := (h.mem_onThread_self fresh allowed hstep messages outcome.record).2 rfl
  rcases List.mem_append.1 hm with hold | hnew
  · obtain ⟨e, he, hsent⟩ := h.backed side m hold
    by_cases hthread : m.threadId = outcome.record.threadId
    · rw [hthread] at he ⊢
      exact ⟨outcome.record, hrecord, h.past_after fresh allowed hstep he hsent⟩
    · exact ⟨e, (h.mem_onThread_elsewhere fresh allowed hstep hthread side e).2 he, hsent⟩
  · obtain ⟨hsender, rfl⟩ := own m hnew
    have hkind := hstep.carries.kind hsender
    have htransition := hstep.transition
    rw [hsender] at htransition
    rw [hstep.thread, hkind]
    exact ⟨outcome.record, hrecord, htransition.past_of_sender⟩

include fresh h allowed hstep in
theorem Coherent.step (own : ∀ m ∈ messages, operation.party = .sender ∧ m = outcome.message) :
    (s.move side after messages).Coherent p := by
  have hput := h.mem_put fresh allowed hstep
  have hself := h.mem_onThread_self fresh allowed hstep messages
  have helsewhere : ∀ {thread}, thread ≠ outcome.record.threadId → ∀ side' e,
      e ∈ (s.move side after messages).onThread side' thread ↔ e ∈ s.onThread side' thread :=
    fun hthread => h.mem_onThread_elsewhere fresh allowed hstep hthread
  have hpaired := h.paired_after fresh allowed hstep messages
  constructor
  case named => exact named_move h.named (hstep.named (h.named side)) messages
  case drawn =>
    intro side' e he
    rcases side.eq_or_eq_other side' with rfl | rfl
    · rw [records, move_world_self, hput] at he
      rcases he with rfl | ⟨hmem, -⟩
      · exact h.drawn_after allowed hstep
      · exact drawn_move hstep.threads (h.drawn side' e hmem)
    · rw [records, move_world_other] at he
      exact drawn_move hstep.threads (h.drawn _ e he)
  case single =>
    intro side' e he e' he' hthread
    rcases side.eq_or_eq_other side' with rfl | rfl
    · rw [records, move_world_self, hput] at he he'
      rcases he with rfl | ⟨hmem, hne⟩
      · rcases he' with rfl | ⟨-, hne'⟩
        · rfl
        · exact absurd hthread.symm hne'
      · rcases he' with rfl | ⟨hmem', -⟩
        · exact absurd hthread hne
        · exact h.single side' e hmem e' hmem' hthread
    · rw [records, move_world_other] at he he'
      exact h.single _ e he e' he' hthread
  case bound =>
    intro side' e he hholder
    rcases side.eq_or_eq_other side' with rfl | rfl
    · rw [records, move_world_self, hput] at he
      rcases he with rfl | ⟨hmem, -⟩
      · exact h.bound_after allowed hstep hholder
      · exact h.bound side' e hmem hholder
    · rw [records, move_world_other] at he
      exact h.bound _ e he hholder
  case paired =>
    intro side' e he
    by_cases hthread : e.threadId = outcome.record.threadId
    · rcases side.eq_or_eq_other side' with rfl | rfl
      · have hsame := (hself e).1 (mem_onThread.2 ⟨he, hthread⟩)
        rw [hsame]
        exact hpaired
      · have hrole := hpaired.others e (mem_onThread.2 ⟨he, hthread⟩)
        rw [hrole, hthread]
        exact hpaired.flip
    · have hmem := (mem_onThread.1 ((helsewhere hthread side' e).1 (mem_onThread.2 ⟨he, rfl⟩))).1
      exact (h.paired side' e hmem).congr (helsewhere hthread)
  case backed =>
    intro side' m hm
    rcases side.eq_or_eq_other side' with rfl | rfl
    · rw [move_sent_self] at hm
      exact h.backed_after fresh allowed hstep own hm
    · rw [move_sent_other] at hm
      rw [onThread, move_world_other]
      exact h.backed side.other m hm

-- An operation that fails changes nothing that matters here.
theorem Coherent.failed (h : s.Coherent p) (unwritten : Unwritten (p.env side) (s.world side) after) :
    (s.move side after []).Coherent p := by
  have hrecords : ∀ side', (s.move side after []).records side' = s.records side' := by
    intro side'
    rcases side.eq_or_eq_other side' with rfl | rfl
    · rw [records, move_world_self, unwritten.records, records]
    · rw [records, move_world_other, records]
  have hsame : ∀ {thread} side' e,
      e ∈ (s.move side after []).onThread side' thread ↔ e ∈ s.onThread side' thread := by
    intro thread side' e
    rw [mem_onThread, hrecords, mem_onThread]
  constructor
  case named => exact named_move h.named (unwritten.named (h.named side)) []
  case drawn =>
    intro side' e he
    rw [hrecords] at he
    exact drawn_move unwritten.threads (h.drawn side' e he)
  case single =>
    intro side'
    rw [hrecords]
    exact h.single side'
  case bound =>
    intro side'
    rw [hrecords]
    exact h.bound side'
  case paired =>
    intro side' e he
    rw [hrecords] at he
    exact (h.paired side' e he).congr hsame
  case backed =>
    intro side' m hm
    have hm' : m ∈ s.sent side' := by
      rcases side.eq_or_eq_other side' with rfl | rfl
      · rw [move_sent_self, List.append_nil] at hm
        exact hm
      · rw [move_sent_other] at hm
        exact hm
    obtain ⟨e, he, hsent⟩ := h.backed side' m hm'
    exact ⟨e, (hsame side' e).2 he, hsent⟩

end Step

end Joint

end CredentialIssuance
