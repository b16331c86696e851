import CredentialIssuance.Proofs.Commit

namespace CredentialIssuance

namespace Journal

-- Of the calls made between the two, none is of the kind.
def Avoids (kind : Call → Bool) (before after : Journal) : Prop :=
  ∃ made, after.calls = before.calls ++ made ∧ ∀ c ∈ made, kind c = false

variable {kind : Call → Bool} {a b c : Journal}

theorem Avoids.of_calls (h : b.calls = a.calls) : a.Avoids kind b :=
  ⟨[], by rw [h, List.append_nil], by simp⟩

theorem Avoids.refl (j : Journal) : j.Avoids kind j := .of_calls rfl

theorem Avoids.trans (first : a.Avoids kind b) (second : b.Avoids kind c) : a.Avoids kind c := by
  obtain ⟨made, hmade, hnone⟩ := first
  obtain ⟨more, hmore, hnone'⟩ := second
  refine ⟨made ++ more, by rw [hmore, hmade, List.append_assoc], ?_⟩
  intro c hc
  exact (List.mem_append.1 hc).elim (hnone c) (hnone' c)

theorem Avoids.asked (j : Journal) {c : Call} (h : kind c = false) : j.Avoids kind (j.asked c) := by
  refine ⟨[c], rfl, ?_⟩
  intro c' hc'
  rw [List.mem_singleton.1 hc', h]

-- What only reads makes no call of a kind that writes or sends.
theorem Extends.avoids {env : Environment} (h : a.Extends env b)
    (effects : ∀ c, c.isEffect = false → kind c = false) :
    a.Avoids kind b := by
  obtain ⟨made, hmade, hread⟩ := h.calls
  exact ⟨made, hmade, fun c hc => effects c (hread c hc)⟩

theorem Avoids.effects (h : a.Avoids kind b) :
    ∃ made, b.effects = a.effects ++ made ∧ ∀ c ∈ made, kind c = false := by
  obtain ⟨made, hmade, hnone⟩ := h
  refine ⟨made.filter Call.isEffect, by rw [Journal.effects, hmade, List.filter_append]; rfl, ?_⟩
  intro c hc
  exact hnone c (List.mem_filter.1 hc).1

end Journal

-- Calls by which a change is carried out.
def Call.isStoring : Call → Bool
  | .get _ | .saveMessage .. | .put _ | .publish _ => true
  | _ => false

-- Whatever happens, the action makes no call of the kind.
def Action.Avoids {α : Type} (kind : Call → Bool) (x : Action α) : Prop :=
  ∀ (env : Environment) (world : World), world.journal.Avoids kind (x env world).2.journal

namespace Action.Avoids

variable {α β : Type} {kind : Call → Bool}

theorem pure (a : α) : (pure a : Action α).Avoids kind := fun _ world => .refl world.journal

theorem bind {x : Action α} {f : α → Action β} (hx : x.Avoids kind) (hf : ∀ a, (f a).Avoids kind) :
    (x >>= f).Avoids kind := by
  intro env world
  have first := hx env world
  rw [bind_apply]
  cases hrun : x env world with
  | mk result between =>
    rw [hrun] at first
    cases result with
    | error e => exact first
    | ok a => exact first.trans (hf a env between)

theorem ofExcept (x : Except Error α) : (liftM x : Action α).Avoids kind :=
  fun _ world => .refl world.journal

theorem lift {x : Inquiry α} (hx : x.Reads) (effects : ∀ c, c.isEffect = false → kind c = false) :
    (liftM x : Action α).Avoids kind :=
  fun env world => (hx env world.stores world.journal).avoids effects

section Commit

variable (storing : ∀ c, c.isStoring = true → kind c = false)

include storing in
theorem saveMessage (exchange : String) (party : Party) (m : Message) :
    (saveMessage exchange party m).Avoids kind := by
  intro env world
  rw [saveMessage_apply]
  split <;> exact .asked world.journal (storing _ rfl)

include storing in
theorem put (e : Exchange) : (put e).Avoids kind := by
  intro env world
  rw [put_apply]
  split <;> exact .asked world.journal (storing _ rfl)

include storing in
theorem publish (event : Event) : (publish event).Avoids kind :=
  fun _ world => .asked world.journal (storing _ rfl)

include storing in
theorem replace (e : Exchange) : (replace e).Avoids kind := by
  have hrecord : (liftM (Inquiry.record e.id) : Action Exchange).Avoids kind := by
    intro env world
    show world.journal.Avoids kind (Inquiry.record e.id env world.stores world.journal).2
    rw [Inquiry.record_apply]
    exact .asked world.journal (storing _ rfl)
  exact bind hrecord fun _ => put storing e

include storing in
theorem commit (c : Change) : c.commit.Avoids kind := by
  have hnow : (liftM Inquiry.now : Action Timestamp).Avoids kind :=
    fun _ world => .refl world.journal
  unfold Change.commit
  refine bind (saveMessage storing _ _ _) fun _ => ?_
  cases c.next with
  | none => exact bind (put storing _) fun _ => bind (publish storing _) fun _ => pure _
  | some next =>
    refine bind hnow fun now => bind (ofExcept _) fun record => ?_
    exact bind (replace storing _) fun _ => bind (publish storing _) fun _ => pure _

end Commit

end Action.Avoids

-- Whenever the inquiry makes a call, the calls made so far and the new one are as they should.
structure Inquiry.Asks {α : Type} (env : Environment) (s : Stores) (j : Journal) (x : Inquiry α)
    (P : List Call → Call → Prop) : Prop where
  grows : j.calls <+: (x env s j).2.calls
  each : ∀ n c, j.calls.length ≤ n → (x env s j).2.calls[n]? = some c →
    P ((x env s j).2.calls.take n) c

namespace Inquiry.Asks

variable {α β : Type} {env : Environment} {s : Stores} {j : Journal} {P : List Call → Call → Prop}

-- No call is made.
theorem of_calls {x : Inquiry α} (h : (x env s j).2.calls = j.calls) : Asks env s j x P := by
  refine ⟨by simp only [h, List.prefix_refl], ?_⟩
  intro n c hn hc
  rw [h] at hc
  have hlt := (List.getElem?_eq_some_iff.1 hc).1
  omega

theorem pure (a : α) : Asks env s j (pure a) P := of_calls rfl

theorem lift (x : Except Error α) : Asks env s j (liftM x : Inquiry α) P := of_calls rfl

theorem fail (e : Error) : Asks env s j (fail e : Inquiry α) P := of_calls rfl

theorem call {c : Call} (h : P j.calls c) : Asks env s j (call c) P := by
  refine ⟨List.prefix_append _ _, ?_⟩
  intro n c' hn hc'
  show P ((j.calls ++ [c]).take n) c'
  change (j.calls ++ [c])[n]? = some c' at hc'
  have hlt := (List.getElem?_eq_some_iff.1 hc').1
  rw [List.length_append, List.length_singleton] at hlt
  obtain rfl : n = j.calls.length := by omega
  rw [List.getElem?_concat_length, Option.some.injEq] at hc'
  rw [List.take_left, ← hc']
  exact h

-- What is asked after a step is asked only if the step succeeds.
theorem bind {x : Inquiry α} {f : α → Inquiry β} (hx : Asks env s j x P)
    (hf : ∀ a between, x env s j = (.ok a, between) → Asks env s between (f a) P) :
    Asks env s j (x >>= f) P := by
  cases hrun : x env s j with
  | mk result between =>
    have hgrows := hx.grows
    have heach := hx.each
    rw [hrun] at hgrows heach
    cases result with
    | error e =>
      have hbind : (x >>= f) env s j = (.error e, between) := by rw [bind_apply, hrun]
      exact ⟨by rw [hbind]; exact hgrows, by rw [hbind]; exact heach⟩
    | ok a =>
      have hbind : (x >>= f) env s j = f a env s between := by rw [bind_apply, hrun]
      have hlater := hf a between hrun
      obtain ⟨more, hmore⟩ := hlater.grows
      refine ⟨by rw [hbind]; exact hgrows.trans hlater.grows, ?_⟩
      intro n c hn hc
      rw [hbind] at hc ⊢
      by_cases hfirst : n < between.calls.length
      · rw [← hmore, List.getElem?_append_left hfirst] at hc
        rw [← hmore, List.take_append_of_le_length (Nat.le_of_lt hfirst)]
        exact heach n c hn hc
      · exact hlater.each n c (Nat.le_of_not_lt hfirst) hc

end Inquiry.Asks

-- After its plan an operation only stores, so what it asks for is what the plan asks for.
theorem Operation.run_asks {env : Environment} {world : World} {version : Version}
    {operation : Operation} {P : List Call → Call → Prop}
    (plan : Inquiry.Asks env world.stores world.journal (operation.plan version) P)
    (storing : ∀ calls c, c.isStoring = true → P calls c) {n : Nat} {c : Call}
    (hn : world.journal.calls.length ≤ n)
    (hc : (operation.run version env world).2.journal.calls[n]? = some c) :
    P ((operation.run version env world).2.journal.calls.take n) c := by
  have heach := plan.each
  cases hplan : operation.plan version env world.stores world.journal with
  | mk result journal =>
    rw [hplan] at heach
    have hcommit :
        journal.Avoids (fun c => !c.isStoring) (operation.run version env world).2.journal := by
      unfold run
      rw [Action.lift_bind_apply, hplan]
      cases result with
      | error x => exact .refl journal
      | ok change =>
        have hchange : change.commit.Avoids fun c => !c.isStoring :=
          .commit (fun c hc => by simp [hc]) change
        exact Action.Avoids.bind hchange (fun _ => .pure _) env ⟨world.stores, journal⟩
    obtain ⟨made, hmade, hstoring⟩ := hcommit
    rw [hmade] at hc ⊢
    by_cases hfirst : n < journal.calls.length
    · rw [List.getElem?_append_left hfirst] at hc
      rw [List.take_append_of_le_length (Nat.le_of_lt hfirst)]
      exact heach n c hn hc
    · rw [List.getElem?_append_right (Nat.le_of_not_lt hfirst)] at hc
      have hstored := hstoring c (List.mem_of_getElem? hc)
      rw [Bool.not_eq_false'] at hstored
      exact storing _ c hstored

end CredentialIssuance
