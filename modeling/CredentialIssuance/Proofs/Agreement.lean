import CredentialIssuance.Proofs.Coherence

namespace CredentialIssuance

namespace Joint

theorem Coherent.start (p : Parties) : Joint.start.Coherent p := by
  refine ⟨fun side => .empty (p.env side), ?_, ?_, ?_, ?_, ?_⟩
  · intro side e he
    cases he
  · intro side e he
    cases he
  · intro side e he
    cases he
  · intro side e he
    cases he
  · intro side m hm
    cases hm

theorem Coherent.moves {p : Parties} (fresh : p.Fresh) {s s' : Joint} (h : s.Coherent p)
    (moves : s.Moves p s') : s'.Coherent p := by
  cases moves with
  | failed allowed run => exact h.failed (Operation.run_error run)
  | done allowed run own =>
    obtain ⟨previous, hstep⟩ := Operation.run_ok run
    exact h.step fresh allowed hstep own

theorem coherent_of_reachable {p : Parties} (fresh : p.Fresh) {s : Joint} (h : Reachable p s) :
    s.Coherent p :=
  reachable_induction (Coherent.start p) (fun _ _ hs moves => hs.moves fresh moves) h

-- Records have distinct identifiers, so a side with two of them on a thread would have two
-- different ones.
theorem Coherent.length_le_one {p : Parties} {s : Joint} (h : s.Coherent p) (side : Side)
    (thread : String) : (s.onThread side thread).length ≤ 1 := by
  have hdistinct : (s.onThread side thread).Nodup := (s.world side).stores.onThread_nodup thread
  match honThread : s.onThread side thread with
  | [] => exact Nat.zero_le 1
  | [e] => exact Nat.le_refl 1
  | e :: e' :: rest =>
    have he : e ∈ s.onThread side thread := by simp [honThread]
    have he' : e' ∈ s.onThread side thread := by simp [honThread]
    obtain ⟨hmem, hthread⟩ := mem_onThread.1 he
    obtain ⟨hmem', hthread'⟩ := mem_onThread.1 he'
    have hsame : e = e' := h.single side e hmem e' hmem' (hthread.trans hthread'.symm)
    rw [honThread, hsame] at hdistinct
    simp at hdistinct

-- Agreement in all reachable joint states. The thread has a holder's side and an issuer's side.
theorem agreement {p : Parties} (fresh : p.Fresh) {s : Joint} (h : Reachable p s)
    (thread : String) :
    (∀ side, (s.onThread side thread).length ≤ 1) ∧
      ((∃ side, s.onThread side thread ≠ []) →
        ∃ holder : Side, (∀ e ∈ s.onThread holder thread, e.role = .holder) ∧
          (∀ e ∈ s.onThread holder.other thread, e.role = .issuer) ∧
          Agreed (s.state? holder thread) (s.state? holder.other thread)) := by
  have hcoherent := coherent_of_reachable fresh h
  refine ⟨fun side => hcoherent.length_le_one side thread, ?_⟩
  rintro ⟨side, hsome⟩
  obtain ⟨e, he⟩ := List.exists_mem_of_ne_nil _ hsome
  obtain ⟨hmem, hthread⟩ := mem_onThread.1 he
  have hpaired := hcoherent.paired side e hmem
  rw [hthread] at hpaired
  -- The record that is there may be either end of the exchange.
  have hends : ∃ holder, s.Paired holder .holder thread := by
    cases hrole : e.role with
    | holder =>
      rw [hrole] at hpaired
      exact ⟨side, hpaired⟩
    | issuer =>
      rw [hrole] at hpaired
      exact ⟨side.other, hpaired.flip⟩
  obtain ⟨holder, hholder⟩ := hends
  exact ⟨holder, hholder.own, hholder.others,
    hholder.agrees _ _ (s.stands_state? holder thread) (s.stands_state? holder.other thread)⟩

end Joint

def Side.mark : Side → Char
  | .left => 'a'
  | .right => 'b'

-- Two agents for which nothing fails.
def Parties.steady : Parties where
  env := fun side => .steady side.mark
  connection := fun _ => ⟨"connection", "did", "their-did", .complete⟩

theorem Parties.steady_fresh : Parties.steady.Fresh := by
  refine ⟨?_, fun side => Environment.steady_fresh side.mark⟩
  rintro ⟨side, n⟩ ⟨side', n'⟩ hsame
  have hchars := congrArg String.toList hsame
  simp only [steady, Environment.steady, String.toList_ofList, List.replicate_succ,
    List.cons.injEq, List.replicate_inj] at hchars
  obtain ⟨hmark, rfl, -⟩ := hchars
  have hside : side = side' := by
    cases side <;> cases side' <;> first | rfl | cases hmark
  rw [hside]

-- A proposal of one agent arrives at the other one.
theorem Joint.agreement_of_proposal :
    ∃ s, Reachable .steady s ∧ s.state? .left "a" = some .proposalSent ∧
      s.state? .right "a" = some .proposalReceived ∧
      ∃ holder : Side, Agreed (s.state? holder "a") (s.state? holder.other "a") := by
  have hproposed : Reachable .steady _ :=
    .call .start .left .v1 (.propose "connection" .blank none) rfl
      (fun c hc => (Option.some.inj hc).symm)
  have harrived : Reachable .steady _ := .deliver hproposed .right
    (Version.v1.propose (.opening "a") .blank) (List.mem_singleton_self _)
  refine ⟨_, harrived, rfl, rfl, ?_⟩
  obtain ⟨holder, -, -, hagreed⟩ := (agreement Parties.steady_fresh harrived "a").2
    ⟨.left, List.cons_ne_nil _ _⟩
  exact ⟨holder, hagreed⟩

end CredentialIssuance
