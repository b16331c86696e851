import CredentialIssuance.Proofs.Permanence

namespace CredentialIssuance

-- An operation that has been run, and what has come of it.
structure Ran where
  version : Version
  operation : Operation
  result : Except Error Outcome

def Ran.Routed (ran : Ran) : Prop := ran.operation.Routed ran.version

theorem Ran.routed_concat {past : List Ran} {last : Ran}
    (h : ∀ ran ∈ past ++ [last], ran.Routed) :
    (∀ ran ∈ past, ran.Routed) ∧ last.operation.Routed last.version := by
  obtain ⟨hpast, hlast⟩ := List.forall_mem_append.1 h
  exact ⟨hpast, hlast last (List.mem_singleton_self last)⟩

-- An agent that began with empty stores has run the operations, in this order, and is where it is.
inductive Chronicle (env : Environment) : List Ran → World → Prop where
  | opens : Chronicle env [] World.empty
  | rests {past : List Ran} {before after : World} (earlier : Chronicle env past before)
      (rested : Rested env before after) : Chronicle env past after
  | runs {past : List Ran} {before : World} (earlier : Chronicle env past before)
      (version : Version) (operation : Operation) :
      Chronicle env (past ++ [⟨version, operation, (operation.run version env before).1⟩])
        (operation.run version env before).2

namespace Chronicle

variable {env : Environment} {past : List Ran} {world : World} {ran : Ran} {o : Outcome}

theorem next (h : Chronicle env past world) {version : Version} {operation : Operation}
    {result : Except Error Outcome} {after : World}
    (hrun : operation.run version env world = (result, after)) :
    Chronicle env (past ++ [⟨version, operation, result⟩]) after := by
  have hlater := h.runs version operation
  rw [hrun] at hlater
  exact hlater

theorem named (h : Chronicle env past world) : world.Named env := by
  induction h with
  | opens => exact .empty env
  | rests _ rested ih => exact rested.named ih
  | runs _ version operation ih => exact ih.step version operation

theorem backed (h : Chronicle env past world) (names : Function.Injective env.exchangeName)
    (routed : ∀ ran ∈ past, ran.Routed) : world.Backed env := by
  induction h with
  | opens => exact .empty env
  | rests _ rested ih => exact (ih routed).mono rested.records rested.messages rested.exchanges
  | runs _ version operation ih =>
    obtain ⟨hbefore, hlast⟩ := Ran.routed_concat routed
    exact (ih hbefore).operation_run names hlast

-- Whatever is in the chronicle was run in some world.
theorem exists_run (h : Chronicle env past world) (hran : ran ∈ past) (hok : ran.result = .ok o) :
    ∃ before after, ran.operation.run ran.version env before = (.ok o, after) := by
  induction h with
  | opens => cases hran
  | rests _ _ ih => exact ih hran
  | @runs past before _ version operation ih =>
    rcases List.mem_append.1 hran with hearlier | hlast
    · exact ih hearlier
    · rw [List.mem_singleton.1 hlast] at hok ⊢
      exact ⟨before, _, Prod.ext hok rfl⟩

-- The record of a completed step is still there, or one that it has turned into.
theorem record_stays (h : Chronicle env past world) (names : Function.Injective env.exchangeName)
    (hran : ran ∈ past) (hok : ran.result = .ok o) :
    ∃ e, world.stores.record? o.record.id = some e ∧ o.record.Onward e := by
  induction h with
  | opens => cases hran
  | rests _ rested ih =>
    rw [rested.record?]
    exact ih hran
  | @runs past before earlier version operation ih =>
    rcases List.mem_append.1 hran with hearlier | hlast
    · obtain ⟨e, he, honward⟩ := ih hearlier
      have hid := honward.origin.id
      rw [← hid] at he
      obtain ⟨e', he', hlater⟩ := Operation.run_precedes names earlier.named version operation e he
      exact ⟨e', hid ▸ he', honward.trans hlater⟩
    · rw [List.mem_singleton.1 hlast] at hok
      obtain ⟨previous, hstep⟩ := Operation.run_ok (Prod.ext hok rfl)
      refine ⟨o.record, ?_, .refl o.record⟩
      rw [hstep.record?, if_pos rfl]

-- And so is its message, if messages go where they belong.
theorem stays (h : Chronicle env past world) (names : Function.Injective env.exchangeName)
    (routed : ∀ ran ∈ past, ran.Routed) (hran : ran ∈ past) (hok : ran.result = .ok o) :
    o.StaysIn world := by
  induction h with
  | opens => cases hran
  | rests _ rested ih =>
    exact (ih routed hran).later rested.precedes rested.preserves
  | @runs past before earlier version operation ih =>
    obtain ⟨hbefore, hlast⟩ := Ran.routed_concat routed
    rcases List.mem_append.1 hran with hearlier | hnow
    · exact (ih hbefore hearlier).later (Operation.run_precedes names earlier.named version operation)
        (Operation.run_preserves names earlier.named hlast.addressed)
    · rw [List.mem_singleton.1 hnow] at hok
      exact .of_run hlast (Prod.ext hok rfl)

end Chronicle

-- The operations of a chronicle are all such as the deeds may carry out.
def Ran.Among (deeds : List Deed) (ran : Ran) : Prop :=
  ∃ deed ∈ deeds, deed.Does ran.version ran.operation

-- The life of an agent has a chronicle: it runs the operations of its deeds and no others.
theorem Environment.live_chronicle (env : Environment) (deeds : List Deed) :
    ∃ past, Chronicle env past (env.live World.empty deeds) ∧ ∀ ran ∈ past, ran.Among deeds := by
  refine Environment.live_induction
    (P := fun w => ∃ past, Chronicle env past w ∧ ∀ ran ∈ past, ran.Among deeds) ?_
    ⟨[], .opens, by simp⟩
  intro world deed hdeed hworld
  refine Deed.perform_induction
    (P := fun w => ∃ past, Chronicle env past w ∧ ∀ ran ∈ past, ran.Among deeds) ?_ ?_ hworld
  · rintro before after ⟨past, hpast, hamong⟩ hrested
    exact ⟨past, hpast.rests hrested, hamong⟩
  · rintro between version operation does - ⟨past, hpast, hamong⟩
    refine ⟨_, hpast.runs version operation, ?_⟩
    intro ran hran
    rcases List.mem_append.1 hran with hearlier | hlast
    · exact hamong ran hearlier
    · rw [List.mem_singleton.1 hlast]
      exact ⟨deed, hdeed, does⟩

theorem Environment.live_chronicle_routed (env : Environment) {deeds : List Deed}
    (routed : ∀ deed ∈ deeds, deed.Routed) :
    ∃ past, Chronicle env past (env.live World.empty deeds) ∧ ∀ ran ∈ past, ran.Routed := by
  obtain ⟨past, hpast, hamong⟩ := env.live_chronicle deeds
  refine ⟨past, hpast, fun ran hran => ?_⟩
  obtain ⟨deed, hdeed, does⟩ := hamong ran hran
  exact does.routed (routed deed hdeed)

end CredentialIssuance
