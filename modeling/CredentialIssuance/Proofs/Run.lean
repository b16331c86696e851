import CredentialIssuance.Proofs.Operation

namespace CredentialIssuance

-- An operation that fails does not stop the run.
def Environment.run (env : Environment) (world : World) : List (Version × Operation) → World
  | [] => world
  | (version, operation) :: rest => env.run (Operation.run version operation env world).2 rest

-- What every operation keeps, whether it succeeds or fails, holds after the run if it holds before.
theorem Environment.run_induction {env : Environment} {P : World → Prop}
    (step : ∀ world version (operation : Operation), P world →
      P (operation.run version env world).2)
    {world : World} (h : P world) (script : List (Version × Operation)) :
    P (env.run world script) := by
  induction script generalizing world with
  | nil => exact h
  | cons head rest ih =>
    obtain ⟨version, operation⟩ := head
    exact ih (step world version operation h)

-- What an operation does to the world it is run in, in both cases.
theorem Operation.run_cases (env : Environment) (world : World) (version : Version)
    (operation : Operation) :
    Unwritten env world (operation.run version env world).2 ∨
      ∃ outcome previous,
        Step env world (operation.run version env world).2 version operation outcome previous := by
  cases hrun : operation.run version env world with
  | mk result after =>
    cases result with
    | error x => exact .inl (run_error hrun)
    | ok outcome =>
      obtain ⟨previous, hstep⟩ := run_ok hrun
      exact .inr ⟨outcome, previous, hstep⟩

-- Every record has an identifier that has been drawn.
def World.Named (env : Environment) (w : World) : Prop :=
  ∀ e ∈ w.stores.records.entries, ∃ n < w.journal.exchanges, e.id = env.exchangeName n

section Named

variable {env : Environment} {before after : World} {version : Version} {operation : Operation}
  {outcome : Outcome} {previous : Option State}

theorem World.Named.empty (env : Environment) : World.empty.Named env := by
  intro e he
  cases he

theorem World.Named.fresh (names : Function.Injective env.exchangeName) (h : before.Named env) :
    before.stores.record? (env.exchangeName before.journal.exchanges) = none := by
  cases hfound : before.stores.record? (env.exchangeName before.journal.exchanges) with
  | none => rfl
  | some e =>
    obtain ⟨hmem, hid⟩ := Stores.record?_eq_some_iff.1 hfound
    obtain ⟨n, hlt, hname⟩ := h e hmem
    have hsame : n = before.journal.exchanges := names (hname.symm.trans hid)
    omega

theorem Step.named (h : Step env before after version operation outcome previous)
    (hnamed : before.Named env) : after.Named env := by
  have hcount := h.exchanges
  intro e he
  rw [h.records, Table.mem_put_iff] at he
  rcases he with rfl | ⟨hmem, -⟩
  · cases previous with
    | none =>
      have hopens := h.opens rfl
      have hdrawn := hopens.drawn
      exact ⟨before.journal.exchanges, by omega, hopens.id⟩
    | some state =>
      obtain ⟨old, hold, -⟩ := h.moves state rfl
      obtain ⟨hmem, hid⟩ := Stores.record?_eq_some_iff.1 hold
      obtain ⟨n, hlt, hname⟩ := hnamed old hmem
      exact ⟨n, by omega, hid.symm.trans hname⟩
  · obtain ⟨n, hlt, hname⟩ := hnamed e hmem
    exact ⟨n, by omega, hname⟩

theorem Unwritten.named (h : Unwritten env before after) (hnamed : before.Named env) :
    after.Named env := by
  have hcount := h.exchanges
  intro e he
  rw [h.records] at he
  obtain ⟨n, hlt, hname⟩ := hnamed e he
  exact ⟨n, by omega, hname⟩

theorem World.Named.step (hnamed : before.Named env) (version : Version)
    (operation : Operation) : (operation.run version env before).2.Named env := by
  rcases operation.run_cases env before version with hunwritten | ⟨outcome, previous, hstep⟩
  · exact hunwritten.named hnamed
  · exact hstep.named hnamed

theorem World.Named.run (hnamed : before.Named env) (script : List (Version × Operation)) :
    (env.run before script).Named env :=
  Environment.run_induction (fun _ version operation h => h.step version operation) hnamed
    script

end Named

end CredentialIssuance
