import CredentialIssuance.Proofs.Life
import Mathlib.Control.Monad.Basic

namespace CredentialIssuance

-- Two records that a look-up by thread, role and connection does not take for one another, where
-- the connection counts for holders only.
def Exchange.Apart (e e' : Exchange) : Prop :=
  e.threadId = e'.threadId → e.role = e'.role →
    e.role = .holder ∧ e.connectionId ≠ e'.connectionId

theorem Exchange.Apart.symm {e e' : Exchange} (h : e.Apart e') : e'.Apart e := by
  intro hthread hrole
  obtain ⟨hholder, hconnection⟩ := h hthread.symm hrole.symm
  exact ⟨hrole.trans hholder, hconnection.symm⟩

def World.Separate (w : World) : Prop :=
  ∀ e ∈ w.stores.records.entries, ∀ e' ∈ w.stores.records.entries, e ≠ e' → e.Apart e'

section Separate

variable {env : Environment} {before after : World} {version : Version} {operation : Operation}
  {outcome : Outcome} {previous : Option State}

theorem World.Separate.empty : World.empty.Separate := by
  intro e he
  cases he

theorem Unwritten.separate (h : Unwritten env before after) (hseparate : before.Separate) :
    after.Separate := by
  rw [World.Separate, h.records]
  exact hseparate

-- The record that a step writes is apart from every record that stays. If it has been opened, its
-- thread is a new one, or the operation has looked for a record in its place.
theorem Step.apart (h : Step env before after version operation outcome previous)
    (fresh : previous = none → before.Fresh env) (hseparate : before.Separate) {e : Exchange}
    (he : e ∈ before.stores.records.entries) (hid : e.id ≠ outcome.record.id) :
    e.Apart outcome.record := by
  intro hthread hrole
  cases hprevious : previous with
  | none =>
    have hopens := h.opens hprevious
    cases hparty : operation.party with
    | sender =>
      have hstarted := (hopens.started hparty).1
      exact absurd (hthread.trans hstarted) ((fresh hprevious).thread e he)
    | receiver =>
      obtain ⟨hholder, hconnection⟩ := hopens.alone hparty e he hthread hrole
      exact ⟨hrole.trans hholder, hconnection⟩
  | some state =>
    obtain ⟨old, hold, horigin, -, hconnection⟩ := h.moves state hprevious
    obtain ⟨hmem, hsame⟩ := Stores.record?_eq_some_iff.1 hold
    have hne : e ≠ old := fun heq => hid (heq ▸ hsame)
    obtain ⟨hholder, hother⟩ := hseparate e he old hmem hne (hthread.trans horigin.threadId)
      (hrole.trans horigin.role)
    rw [hconnection (hrole.symm.trans hholder)] at hother
    exact ⟨hholder, hother⟩

theorem Step.separate (h : Step env before after version operation outcome previous)
    (fresh : previous = none → before.Fresh env) (hseparate : before.Separate) :
    after.Separate := by
  intro e he e' he' hne
  rw [h.records, Table.mem_put_iff] at he he'
  rcases he with rfl | ⟨hmem, hid⟩
  · rcases he' with rfl | ⟨hmem', hid'⟩
    · exact absurd rfl hne
    · exact (h.apart fresh hseparate hmem' hid').symm
  · rcases he' with rfl | ⟨hmem', -⟩
    · exact h.apart fresh hseparate hmem hid
    · exact hseparate e hmem e' hmem' hne

-- An operation that names a record opens none, so it does not rely on fresh identifiers.
theorem World.Separate.operation_run (hseparate : before.Separate) (version : Version)
    (operation : Operation) (fresh : operation.exchange? = none → before.Fresh env) :
    (operation.run version env before).2.Separate := by
  cases hrun : operation.run version env before with
  | mk result after =>
    cases result with
    | error x => exact (Operation.run_error hrun).separate hseparate
    | ok outcome =>
      cases hnamed : operation.exchange? with
      | none =>
        obtain ⟨previous, hstep⟩ := Operation.run_ok hrun
        exact hstep.separate (fun _ => fresh hnamed) hseparate
      | some id =>
        obtain ⟨-, state, hstep⟩ := Operation.run_named hnamed hrun
        exact hstep.separate nofun hseparate

theorem World.Separate.perform (hseparate : before.Separate) (fresh : before.Fresh env)
    (deed : Deed) : (deed.perform env before).Separate := by
  refine Deed.perform_induction (fun _ _ h hrested => hrested.toUnwritten.separate h) ?_ hseparate
  intro between version operation _ hfirst hbetween
  refine hbetween.operation_run version operation fun hnone => ?_
  rw [hfirst hnone]
  exact fresh

theorem World.Separate.live {world : World} {deeds : List Deed} (hseparate : world.Separate)
    (fresh : env.Fresh world deeds) : (env.live world deeds).Separate :=
  Environment.live_induction_fresh fresh (fun _ deed hfresh h => h.perform hfresh deed) hseparate

end Separate

section LookUps

variable {s : Stores} {thread : String} {role : Option Role} {connection : Option String}

-- Two records stand behind a look-up that is at fault.
theorem Stores.select_fault {x : Error}
    (h : Inquiry.select thread role connection (s.onThread thread) = .error x) :
    ∃ e ∈ s.records.entries, ∃ e' ∈ s.records.entries, e ≠ e' ∧
      e.Answers thread role connection ∧ e'.Answers thread role connection := by
  obtain ⟨-, e, he, e', he', hne, hanswers, hanswers'⟩ :=
    Inquiry.select_fault (s.onThread_nodup thread) h
  exact ⟨e, (mem_onThread.1 he).1, e', (mem_onThread.1 he').1, hne, hanswers, hanswers'⟩

theorem World.Separate.select_ok {w : World} (hseparate : w.Separate) {role : Role}
    (narrow : role = .issuer ∨ connection.isSome = true) :
    ∃ found, Inquiry.select thread (some role) connection (w.stores.onThread thread) = .ok found := by
  cases hselect : Inquiry.select thread (some role) connection (w.stores.onThread thread) with
  | ok found => exact ⟨found, rfl⟩
  | error x =>
    obtain ⟨e, he, e', he', hne, hanswers, hanswers'⟩ := Stores.select_fault hselect
    have hrole : e.role = role := hanswers.2.1 role rfl
    obtain ⟨hholder, hconnection⟩ := hseparate e he e' he' hne
      (hanswers.1.trans hanswers'.1.symm) (hrole.trans (hanswers'.2.1 role rfl).symm)
    rcases narrow with rfl | hsome
    · cases hrole.symm.trans hholder
    · obtain ⟨c, hc⟩ := Option.isSome_iff_exists.1 hsome
      exact absurd ((hanswers.2.2 c hc).trans (hanswers'.2.2 c hc).symm) hconnection

end LookUps

-- A report at fault has found two records. Over a connection these are a holder's and an issuer's.
theorem World.Separate.report_fault {env : Environment} {w : World} (hseparate : w.Separate)
    {version : Version} {inbound : Inbound} {fault : Fault}
    (h : ((Operation.receive .problemReport inbound).run version env w).1 =
      .error (.invalidMessage fault)) :
    ∃ e ∈ w.stores.records.entries, ∃ e' ∈ w.stores.records.entries, e ≠ e' ∧
      e.threadId = inbound.message.threadId ∧ e'.threadId = inbound.message.threadId ∧
      ∀ c ∈ inbound.connectionId, e.role ≠ e'.role ∧ e.connectionId = e'.connectionId ∧
        (e.connectionId = c ∨ e.connectionId = env.config.connectionlessId) := by
  rcases Operation.run_eq_error (Prod.ext h rfl) with ⟨journal, hplan, -⟩ | ⟨_, _, _, hcommit⟩
  · obtain ⟨narrowed, hnarrowed, hselect⟩ := receiveReport_fault hplan
    obtain ⟨e, he, e', he', hne, hanswers, hanswers'⟩ := Stores.select_fault hselect
    refine ⟨e, he, e', he', hne, hanswers.1, hanswers'.1, ?_⟩
    intro c hc
    -- Whether the look-up was for the connection or for the placeholder, both records are bound to
    -- it.
    have hbound : ∃ id, narrowed = some id ∧ (id = c ∨ id = env.config.connectionlessId) := by
      rcases hnarrowed c hc with hsome | hsome
      · exact ⟨c, hsome, .inl rfl⟩
      · exact ⟨_, hsome, .inr rfl⟩
    obtain ⟨id, rfl, hid⟩ := hbound
    have hconnection : e.connectionId = id := hanswers.2.2 id rfl
    have hsame : e.connectionId = e'.connectionId :=
      hconnection.trans (hanswers'.2.2 id rfl).symm
    refine ⟨?_, hsame, hconnection ▸ hid⟩
    intro hrole
    exact (hseparate e he e' he' hne (hanswers.1.trans hanswers'.1.symm) hrole).2 hsame
  · cases Change.commit_error_isFault hcommit

namespace Environment

-- Two records of one role on one thread are always a holder's, over two connections. So a look-up
-- by thread and role decides for an issuer, and for a holder if a connection is given.
theorem live_apart {env : Environment} {deeds : List Deed} (fresh : env.Fresh World.empty deeds) :
    let stores := (env.live World.empty deeds).stores
    (∀ e ∈ stores.records.entries, ∀ e' ∈ stores.records.entries, e ≠ e' →
        e.threadId = e'.threadId → e.role = e'.role →
          e.role = .holder ∧ e.connectionId ≠ e'.connectionId) ∧
      ∀ thread role connection, role = .issuer ∨ connection.isSome = true →
        ∃ found, Inquiry.select thread (some role) connection (stores.onThread thread) =
          .ok found := by
  intro stores
  have hseparate := World.Separate.empty.live fresh
  refine ⟨hseparate, ?_⟩
  intro thread role connection narrow
  exact hseparate.select_ok narrow

-- The same offer over two connections: with the connection, the look-up finds the second record.
theorem live_apart_offered :
    let env := Environment.steady 'a'
    let deeds : List Deed :=
      [.arriving (.openingOffer "thread") "first", .arriving (.openingOffer "thread") "second"]
    env.Fresh World.empty deeds ∧
      ∃ found, Inquiry.select "thread" (some .holder) (some "second")
        ((env.live World.empty deeds).stores.onThread "thread") = .ok found :=
  ⟨by decide +kernel, (live_apart (by decide +kernel)).2 _ _ _ (.inr rfl)⟩

-- Without it, the look-up by thread and role finds two.
theorem live_offered_twice :
    let env := Environment.steady 'a'
    let deeds : List Deed :=
      [.arriving (.openingOffer "thread") "first", .arriving (.openingOffer "thread") "second"]
    let stores := (env.live World.empty deeds).stores
    env.Fresh World.empty deeds ∧
      (∃ e ∈ stores.records.entries, ∃ e' ∈ stores.records.entries,
        e ≠ e' ∧ e.threadId = e'.threadId ∧ e.role = e'.role) ∧
      Inquiry.select "thread" (some .holder) none (stores.onThread "thread") =
        .error (.invalidMessage (.ambiguousThread "thread")) := by
  decide +kernel

-- A thread and a connection have one record of each role at most. A report is at fault only if it
-- comes over a connection on which its thread has both, or without one on a thread with two
-- records.
theorem live_one_per_role {env : Environment} {deeds : List Deed}
    (fresh : env.Fresh World.empty deeds) :
    let world := env.live World.empty deeds
    (∀ e ∈ world.stores.records.entries, ∀ e' ∈ world.stores.records.entries,
        e.threadId = e'.threadId → e.connectionId = e'.connectionId → e.role = e'.role → e = e') ∧
      ∀ version inbound fault,
        ((Operation.receive .problemReport inbound).run version env world).1 =
            .error (.invalidMessage fault) →
          ∃ e ∈ world.stores.records.entries, ∃ e' ∈ world.stores.records.entries, e ≠ e' ∧
            e.threadId = inbound.message.threadId ∧ e'.threadId = inbound.message.threadId ∧
            ∀ c, inbound.connection = some c →
              e.role ≠ e'.role ∧ e.connectionId = e'.connectionId ∧
                (e.connectionId = c.id ∨ e.connectionId = env.config.connectionlessId) := by
  intro world
  have hseparate := World.Separate.empty.live fresh
  refine ⟨?_, ?_⟩
  · intro e he e' he' hthread hconnection hrole
    by_contra hne
    exact (hseparate e he e' he' hne hthread hrole).2 hconnection
  · intro version inbound fault h
    obtain ⟨e, he, e', he', hne, hthread, hthread', hbound⟩ := hseparate.report_fault h
    refine ⟨e, he, e', he', hne, hthread, hthread', ?_⟩
    intro c hc
    exact hbound c.id (by simp [Inbound.connectionId, hc])

-- A report on a thread where the agent has taken in a proposal and an offer.
theorem live_one_per_role_reported :
    let env := Environment.steady 'a'
    let deeds : List Deed :=
      [.arriving (.openingProposal "thread") "first", .arriving (.openingOffer "thread") "first"]
    let records := (env.live World.empty deeds).stores.records.entries
    env.Fresh World.empty deeds ∧
      ∃ e ∈ records, ∃ e' ∈ records, e.role ≠ e'.role ∧ e.connectionId = e'.connectionId := by
  intro env deeds records
  have fresh : env.Fresh World.empty deeds := by decide +kernel
  refine ⟨fresh, ?_⟩
  obtain ⟨e, he, e', he', -, -, -, hbound⟩ := (live_one_per_role fresh).2 .v1
    ⟨.reportOn "thread", some (.complete "first")⟩ (.ambiguousThread "thread") (by decide +kernel)
  obtain ⟨hrole, hconnection, -⟩ := hbound _ rfl
  exact ⟨e, he, e', he', hrole, hconnection⟩

-- An agent that is issuer and holder on one thread and connection cannot tell whom a report over
-- that connection concerns; and if it is so over two connections, whom a report without one
-- concerns.
theorem live_both_roles :
    let env := Environment.steady 'a'
    let first : List Deed :=
      [.arriving (.openingProposal "thread") "first", .arriving (.openingOffer "thread") "first"]
    let second : List Deed :=
      [.arriving (.openingProposal "thread") "first", .arriving (.openingOffer "thread") "second"]
    let report := fun connection =>
      Operation.receive .problemReport ⟨.reportOn "thread", connection⟩
    let ambiguous := Error.invalidMessage (.ambiguousThread "thread")
    env.Fresh World.empty first ∧ env.Fresh World.empty second ∧
      (∃ e ∈ (env.live World.empty first).stores.records.entries,
        ∃ e' ∈ (env.live World.empty first).stores.records.entries,
          e ≠ e' ∧ e.threadId = e'.threadId ∧ e.connectionId = e'.connectionId) ∧
      ((report (some (.complete "first"))).run .v1 env (env.live World.empty first)).1 =
        .error ambiguous ∧
      ((report none).run .v1 env (env.live World.empty second)).1 = .error ambiguous := by
  decide +kernel

end Environment

end CredentialIssuance
