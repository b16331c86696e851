import CredentialIssuance.Proofs.Run
import Mathlib.Data.List.Chain

namespace CredentialIssuance

-- Whether a record may take the place of another one in the stores.
structure Exchange.Forward (old new : Exchange) : Prop where
  origin : old.SameOrigin new
  isOpen : old.state.isTerminal = false
  rises : old.state.rank < new.state.rank

instance : Trans Exchange.Forward Exchange.Forward Exchange.Forward where
  trans first second :=
    ⟨first.origin.trans second.origin, first.isOpen, Nat.lt_trans first.rises second.rises⟩

-- The records under the identifier among those that have been put.
def replacements (id : String) (written : List Exchange) : List Exchange :=
  written.filter (·.id = id)

-- What has become of a record: the records put under its identifier follow it, each one further on
-- than the one before, and the last one is stored.
structure Kept (env : Environment) (e : Exchange) (before after : World)
    (written : List Exchange) : Prop where
  puts : after.journal.puts env = before.journal.puts env ++ written
  chain : (e :: replacements e.id written).IsChain Exchange.Forward
  last : after.stores.record? e.id = (e :: replacements e.id written).getLast?

section Kept

variable {env : Environment} {before between after : World} {version : Version}
  {operation : Operation} {outcome : Outcome} {previous : Option State} {e : Exchange}

theorem Kept.refl (hstored : before.stores.record? e.id = some e) :
    Kept env e before before [] := by
  refine ⟨?_, ?_, ?_⟩
  · rw [List.append_nil]
  · exact List.isChain_singleton e
  · exact hstored

-- The later history of a record begins with the record in which the earlier one ends.
theorem Kept.trans {e' : Exchange} {written more : List Exchange}
    (first : Kept env e before between written)
    (hstored : between.stores.record? e.id = some e') (second : Kept env e' between after more) :
    Kept env e before after (written ++ more) := by
  have hid : e'.id = e.id := (Stores.record?_eq_some_iff.1 hstored).2
  have hends : (e :: replacements e.id written).getLast? = some e' := first.last.symm.trans hstored
  have hchain := second.chain
  have hlast := second.last
  rw [hid] at hchain hlast
  have happend : replacements e.id (written ++ more) =
      replacements e.id written ++ replacements e.id more := List.filter_append ..
  refine ⟨?_, ?_, ?_⟩
  · rw [second.puts, first.puts, List.append_assoc]
  · rw [happend, ← List.cons_append, List.isChain_append]
    refine ⟨first.chain, hchain.tail, ?_⟩
    intro x hx y hy
    rw [hends, Option.mem_some_iff] at hx
    subst hx
    exact List.IsChain.rel_head? hchain hy
  · rw [hlast, happend, ← List.cons_append]
    cases hmore : replacements e.id more with
    | nil => rw [List.append_nil, hends, List.getLast?_singleton]
    | cons head rest =>
      rw [List.getLast?_append_cons, List.getLast?_cons_cons]

theorem Unwritten.kept (h : Unwritten env before after)
    (hstored : before.stores.record? e.id = some e) : Kept env e before after [] := by
  refine ⟨?_, ?_, ?_⟩
  · rw [List.append_nil, h.puts]
  · exact List.isChain_singleton e
  · rw [h.record?]
    exact hstored

-- An operation that writes a record which is already there moves it forward.
theorem Step.forward (names : Function.Injective env.exchangeName) (hnamed : before.Named env)
    (h : Step env before after version operation outcome previous)
    (hstored : before.stores.record? outcome.record.id = some e) : e.Forward outcome.record := by
  cases hprevious : previous with
  | none =>
    have hnone := h.previous_eq (hnamed.fresh names)
    rw [hstored, hprevious] at hnone
    cases hnone
  | some state =>
    obtain ⟨old, hold, horigin, hstate, -⟩ := h.moves state hprevious
    have hsame : old = e := Option.some.inj (hold.symm.trans hstored)
    have htransition := h.transition
    rw [hprevious, ← hstate, hsame] at htransition
    obtain ⟨hopen, hrank⟩ := htransition.rises
    exact ⟨hsame ▸ horigin, hopen, hrank⟩

theorem Step.kept (names : Function.Injective env.exchangeName) (hnamed : before.Named env)
    (h : Step env before after version operation outcome previous)
    (hstored : before.stores.record? e.id = some e) :
    Kept env e before after [outcome.record] := by
  by_cases hid : outcome.record.id = e.id
  · have hforward := h.forward names hnamed (hid ▸ hstored)
    have hreplaced : replacements e.id [outcome.record] = [outcome.record] := by
      simp [replacements, hid]
    refine ⟨h.puts, ?_, ?_⟩
    · rw [hreplaced]
      exact List.isChain_pair.2 hforward
    · rw [hreplaced, h.record?, if_pos hid]
      rfl
  · have hother : replacements e.id [outcome.record] = [] := by
      simp [replacements, hid]
    refine ⟨h.puts, ?_, ?_⟩
    · rw [hother]
      exact List.isChain_singleton e
    · rw [hother, h.record?, if_neg hid]
      exact hstored

theorem Kept.operation_run (names : Function.Injective env.exchangeName)
    (hnamed : before.Named env) (version : Version) (operation : Operation)
    (hstored : before.stores.record? e.id = some e) :
    ∃ written, Kept env e before (operation.run version env before).2 written := by
  rcases operation.run_cases env before version with hunwritten | ⟨outcome, previous, hstep⟩
  · exact ⟨[], hunwritten.kept hstored⟩
  · exact ⟨[outcome.record], hstep.kept names hnamed hstored⟩

theorem Kept.run (names : Function.Injective env.exchangeName) (hnamed : before.Named env)
    (hstored : before.stores.record? e.id = some e) (script : List (Version × Operation)) :
    ∃ written, Kept env e before (env.run before script) written := by
  induction script generalizing before e with
  | nil => exact ⟨[], .refl hstored⟩
  | cons head rest ih =>
    obtain ⟨version, operation⟩ := head
    obtain ⟨written, hfirst⟩ := Kept.operation_run names hnamed version operation hstored
    obtain ⟨e', hlast⟩ := Option.isSome_iff_exists.1
      (List.getLast?_isSome.2 (List.cons_ne_nil e (replacements e.id written)))
    have hbetween := hfirst.last.trans hlast
    have hid := (Stores.record?_eq_some_iff.1 hbetween).2
    obtain ⟨more, hsecond⟩ := ih (hnamed.step version operation) (hid ▸ hbetween)
    exact ⟨written ++ more, hfirst.trans hbetween hsecond⟩

end Kept

-- Whatever is stored at some point of a run is there at every later point, as the last of the
-- records that have replaced it since. Nothing replaces a finished record.
theorem Environment.run_forward {env : Environment} (names : Function.Injective env.exchangeName)
    (first second : List (Version × Operation)) {id : String} {e : Exchange}
    (stored : (env.run World.empty first).stores.record? id = some e) :
    let early := env.run World.empty first
    let late := env.run early second
    ∃ written, late.journal.puts env = early.journal.puts env ++ written ∧
      let successors := replacements id written
      late.stores.record? id = (e :: successors).getLast? ∧
      (e :: successors).Pairwise (fun old new =>
        old.SameOrigin new ∧ old.state.rank < new.state.rank) ∧
      (e.state.isTerminal = true → successors = []) := by
  intro early late
  have hnamed : early.Named env := (World.Named.empty env).run first
  have hid : e.id = id := (Stores.record?_eq_some_iff.1 stored).2
  subst hid
  obtain ⟨written, hkept⟩ := Kept.run names hnamed stored second
  refine ⟨written, hkept.puts, hkept.last, ?_, ?_⟩
  · have hpairwise := List.isChain_iff_pairwise.1 hkept.chain
    exact hpairwise.imp fun hforward => ⟨hforward.origin, hforward.rises⟩
  · intro hterminal
    cases hsuccessors : replacements e.id written with
    | nil => rfl
    | cons next rest =>
      have hchain := hkept.chain
      rw [hsuccessors] at hchain
      have hopen := (List.isChain_cons_cons.1 hchain).1.isOpen
      rw [hterminal] at hopen
      cases hopen

-- A proposal, and then a report on it, which replaces the record.
theorem Environment.run_forward_reported :
    let env := Environment.steady 'a'
    let report : Message := ⟨.reply "m" "a", .problemReport .v1 "code" none⟩
    let proposed := env.run World.empty [(.v1, .propose "connection" .blank none)]
    let declined := env.run proposed [(.v1, .receive .problemReport ⟨report, none⟩)]
    ∃ e written, proposed.stores.record? "e" = some e ∧
      declined.journal.puts env = proposed.journal.puts env ++ written ∧
      declined.stores.record? "e" = (e :: replacements "e" written).getLast? := by
  intro env report proposed declined
  have hstored : ∃ e, proposed.stores.record? "e" = some e := ⟨_, rfl⟩
  obtain ⟨e, he⟩ := hstored
  obtain ⟨written, hputs, hlast, -⟩ := run_forward (steady_fresh 'a')
    [(.v1, .propose "connection" .blank none)] [(.v1, .receive .problemReport ⟨report, none⟩)] he
  exact ⟨e, written, he, hputs, hlast⟩

end CredentialIssuance
