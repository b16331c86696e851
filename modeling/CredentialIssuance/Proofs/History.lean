import CredentialIssuance.Proofs.Run
import Mathlib.Data.List.Chain

namespace CredentialIssuance

-- The events that were published for one identifier.
def Stores.history (s : Stores) (id : String) : List Event :=
  s.events.filter (·.exchange.id = id)

-- The store that results from taking over the snapshot of each event in turn.
def replay (events : List Event) : Table Exchange.id :=
  events.foldl (fun records event => records.put event.exchange) .empty

-- The events that lead to a record: it was opened and then moved step by step.
inductive Tells : List Event → Exchange → Prop where
  | opened {e : Exchange} (opening : e.state ∈ e.role.openings) : Tells [⟨e, none⟩] e
  | moved {events : List Event} {old e : Exchange} (told : Tells events old)
      (role : e.role = old.role) (follows : e.role.Follows old.state e.state) :
      Tells (events ++ [⟨e, some old.state⟩]) e

namespace Tells

variable {events : List Event} {e : Exchange}

theorem last (h : Tells events e) : ∃ event, events.getLast? = some event ∧ event.exchange = e := by
  cases h with
  | opened _ => exact ⟨_, rfl, rfl⟩
  | moved told _ _ => exact ⟨_, List.getLast?_concat, rfl⟩

theorem first (h : Tells events e) :
    ∃ event, events.head? = some event ∧ event.previous = none ∧
      event.state ∈ e.role.openings := by
  induction h with
  | opened opening => exact ⟨_, rfl, rfl, opening⟩
  | moved _ role _ ih =>
    obtain ⟨event, hhead, hprevious, hopening⟩ := ih
    refine ⟨event, ?_, hprevious, role ▸ hopening⟩
    rw [List.head?_append, hhead, Option.some_or]

-- Each event names the state of the one before it as the previous one, and follows it.
theorem chain (h : Tells events e) :
    events.IsChain fun before after =>
      after.previous = some before.state ∧ e.role.Follows before.state after.state := by
  induction h with
  | opened _ => exact List.isChain_singleton _
  | moved told role follows ih =>
    obtain ⟨event, hlast, hexchange⟩ := told.last
    rw [List.isChain_append]
    refine ⟨role ▸ ih, List.isChain_singleton _, ?_⟩
    intro before hbefore after hafter
    rw [hlast, Option.mem_some_iff] at hbefore
    rw [List.head?_cons, Option.mem_some_iff] at hafter
    subst hbefore hafter
    rw [Event.state, hexchange]
    exact ⟨rfl, follows⟩

end Tells

-- The log and the store say the same.
structure World.Logged (w : World) : Prop where
  replays : replay w.stores.events = w.stores.records
  silent : ∀ id, w.stores.record? id = none → w.stores.history id = []
  told : ∀ id e, w.stores.record? id = some e → Tells (w.stores.history id) e

section Logged

variable {env : Environment} {before after : World} {version : Version} {operation : Operation}
  {outcome : Outcome} {previous : Option State}

theorem World.Logged.empty : World.empty.Logged := by
  refine ⟨rfl, ?_, ?_⟩
  · intro id _
    rfl
  · intro id e he
    cases he

theorem Unwritten.logged (h : Unwritten env before after) (hlogged : before.Logged) :
    after.Logged := by
  have hhistory : ∀ id, after.stores.history id = before.stores.history id := by
    intro id
    rw [Stores.history, h.events, Stores.history]
  refine ⟨?_, ?_, ?_⟩
  · rw [h.events, h.records, hlogged.replays]
  · intro id hnone
    rw [h.record?] at hnone
    rw [hhistory, hlogged.silent id hnone]
  · intro id e he
    rw [h.record?] at he
    rw [hhistory]
    exact hlogged.told id e he

theorem Step.events (h : Step env before after version operation outcome previous) :
    after.stores.events = before.stores.events ++ [⟨outcome.record, previous⟩] := by
  rw [h.stores]
  rfl

-- Only the history of the record that is written grows.
theorem Step.history (h : Step env before after version operation outcome previous) (id : String) :
    after.stores.history id = before.stores.history id ++
      if outcome.record.id = id then [⟨outcome.record, previous⟩] else [] := by
  rw [Stores.history, h.events, List.filter_append, Stores.history]
  by_cases hid : outcome.record.id = id <;> simp [hid]

-- The event of a step continues what the events before it have told.
theorem Step.tells (names : Function.Injective env.exchangeName) (hnamed : before.Named env)
    (h : Step env before after version operation outcome previous) (hlogged : before.Logged) :
    Tells (before.stores.history outcome.record.id ++ [⟨outcome.record, previous⟩])
      outcome.record := by
  have htransition := h.transition
  cases previous with
  | none =>
    have hnone := Option.map_eq_none_iff.1 (h.previous_eq (hnamed.fresh names))
    rw [hlogged.silent _ hnone]
    exact .opened htransition.mem_openings
  | some state =>
    obtain ⟨old, hold, horigin, rfl, -⟩ := h.moves state rfl
    exact .moved (hlogged.told _ old hold) horigin.role htransition.follows

theorem Step.logged (names : Function.Injective env.exchangeName) (hnamed : before.Named env)
    (h : Step env before after version operation outcome previous) (hlogged : before.Logged) :
    after.Logged := by
  refine ⟨?_, ?_, ?_⟩
  · rw [h.events, h.records, replay, List.foldl_append]
    exact congrArg (Table.put · outcome.record) hlogged.replays
  · intro id hnone
    rw [h.record?] at hnone
    split at hnone
    · cases hnone
    · next hid => rw [h.history, if_neg hid, List.append_nil, hlogged.silent id hnone]
  · intro id e he
    rw [h.record?] at he
    split at he
    · next hid =>
      obtain rfl := Option.some.inj he
      rw [h.history, if_pos hid, ← hid]
      exact h.tells names hnamed hlogged
    · next hid =>
      rw [h.history, if_neg hid, List.append_nil]
      exact hlogged.told id e he

end Logged

theorem World.Logged.run {env : Environment} (names : Function.Injective env.exchangeName)
    {world : World} (hnamed : world.Named env) (hlogged : world.Logged)
    (script : List (Version × Operation)) : (env.run world script).Logged := by
  have hboth : (env.run world script).Named env ∧ (env.run world script).Logged := by
    refine Environment.run_induction (P := fun w => w.Named env ∧ w.Logged) ?_ ⟨hnamed, hlogged⟩ script
    intro between version operation ⟨hnamed, hlogged⟩
    refine ⟨hnamed.step version operation, ?_⟩
    rcases operation.run_cases env between version with hunwritten | ⟨outcome, previous, hstep⟩
    · exact hunwritten.logged hlogged
    · exact hstep.logged names hnamed hlogged
  exact hboth.2

-- The log of any run from empty stores rebuilds the record store, and the events of each record
-- form one chain, from the event that announces it to the one that shows it as it is stored.
theorem Environment.run_history {env : Environment} (names : Function.Injective env.exchangeName)
    (script : List (Version × Operation)) :
    let stores := (env.run World.empty script).stores
    replay stores.events = stores.records ∧
      (∀ id, stores.record? id = none → stores.history id = []) ∧
      ∀ id e, stores.record? id = some e →
        (∃ first, (stores.history id).head? = some first ∧ first.previous = none ∧
          first.state ∈ e.role.openings) ∧
        ((stores.history id).IsChain fun before after =>
          after.previous = some before.state ∧ e.role.Follows before.state after.state) ∧
        ∃ last, (stores.history id).getLast? = some last ∧ last.exchange = e := by
  intro stores
  have hlogged := World.Logged.run names (.empty env) .empty script
  refine ⟨hlogged.replays, hlogged.silent, ?_⟩
  intro id e he
  have htold := hlogged.told id e he
  exact ⟨htold.first, htold.chain, htold.last⟩

-- The log of a proposal and of a report on it.
theorem Environment.run_history_reported :
    let report : Message := ⟨.reply "m" "a", .problemReport .v1 "code" none⟩
    let stores := ((steady 'a').run World.empty
      [(.v1, .propose "connection" .blank none), (.v1, .receive .problemReport ⟨report, none⟩)]).stores
    replay stores.events = stores.records ∧ (stores.history "e").map Event.state =
        [.proposalSent, .declined] ∧
      ∃ e last, stores.record? "e" = some e ∧ (stores.history "e").getLast? = some last ∧
        last.exchange = e := by
  intro report stores
  obtain ⟨hreplay, -, hhistory⟩ := run_history (steady_fresh 'a')
    [(.v1, .propose "connection" .blank none), (.v1, .receive .problemReport ⟨report, none⟩)]
  have hstored : ∃ e, stores.record? "e" = some e := ⟨_, rfl⟩
  obtain ⟨e, he⟩ := hstored
  obtain ⟨last, hlast, hexchange⟩ := (hhistory "e" e he).2.2
  exact ⟨hreplay, rfl, e, last, he, hlast, hexchange⟩

end CredentialIssuance
