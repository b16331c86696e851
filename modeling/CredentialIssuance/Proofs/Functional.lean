import CredentialIssuance.Proofs.Pairing

namespace CredentialIssuance

namespace Environment

-- Whatever the collaborators are asked, they answer it the same at any time.
def Functional (env : Environment) : Prop :=
  ∀ n n' call, env.answer n call = env.answer n' call

-- What the cache keeps is what the ledger answers.
def Backs (env : Environment) (cache : Cache) : Prop :=
  ∀ entry ∈ cache.entries, ∀ n, env.answer n (.ledger entry.artifact entry.id) = .ok entry.value

-- What a call comes to.
def reply (env : Environment) (c : Call) : Except Error c.Answer :=
  (env.answer 0 c).mapError .external

theorem reply_error {env : Environment} {c : Call} {e : Error} (h : env.reply c = .error e) :
    ∃ text, e = .external text := by
  unfold reply at h
  cases hanswer : env.answer 0 c with
  | ok a =>
    rw [hanswer] at h
    cases h
  | error text =>
    rw [hanswer] at h
    cases h
    exact ⟨text, rfl⟩

end Environment

namespace Environment.Backs

variable {env : Environment} {cache : Cache} {artifact : Artifact} {id value : String}

theorem fresh (h : env.Backs cache) {config : CacheConfig} {now : Nat}
    (kept : cache.fresh? config now artifact id = some value) (n : Nat) :
    env.answer n (.ledger artifact id) = .ok value := by
  unfold Cache.fresh? at kept
  split at kept
  · next entry hfound =>
    split at kept
    · cases kept
      have hfor := List.find?_some hfound
      simp only [Cache.Entry.isFor, Bool.and_eq_true, decide_eq_true_eq] at hfor
      obtain ⟨rfl, rfl⟩ := hfor
      exact h entry (List.mem_of_find?_eq_some hfound) n
    · cases kept
  · cases kept

theorem caches {before after : Journal} (h : env.Backs before.cache) (functional : env.Functional)
    (later : before.Caches env after) : env.Backs after.cache := by
  intro entry hentry n
  rcases later entry hentry with hkept | ⟨n', hanswer⟩
  · exact h entry hkept n
  · rw [functional n n', hanswer]

end Environment.Backs

-- A later journal in which no name has been drawn since.
structure Journal.Consults (env : Environment) (before after : Journal) : Prop where
  exchanges : after.exchanges = before.exchanges
  messages : after.messages = before.messages
  calls : before.calls.length ≤ after.calls.length
  backed : env.Backs after.cache

theorem Journal.Consults.asked {env : Environment} {j : Journal} (backed : env.Backs j.cache)
    (c : Call) : j.Consults env (j.asked c) :=
  ⟨rfl, rfl, by simp [Journal.asked], backed⟩

namespace Inquiry

-- Whatever is stored, and however late it is, the inquiry comes to that.
def ComesTo {α : Type} (env : Environment) (x : Inquiry α) (result : Except Error α) : Prop :=
  ∀ s j, env.Backs j.cache → ∃ after, x env s j = (result, after) ∧ j.Consults env after

variable {env : Environment} (functional : env.Functional)
include functional

theorem call_comesTo (c : Call) : ComesTo env (call c) (env.reply c) := by
  intro s j backed
  refine ⟨j.asked c, ?_, .asked backed c⟩
  rw [Inquiry.call, functional j.calls.length 0, Environment.reply]
  cases env.answer 0 c <;> rfl

-- Whether the cache answers or the ledger is asked, the answer is that of the ledger.
theorem ledger_comesTo (artifact : Artifact) (id : String) :
    ComesTo env (ledger artifact id) (env.reply (.ledger artifact id)) := by
  intro s j backed
  simp only [ledger, Cache.lookup, Environment.reply]
  cases hfresh : j.cache.fresh? env.config.cache (env.clock j.calls.length) artifact id with
  | some value =>
    refine ⟨_, ?_, rfl, rfl, Nat.le_refl _, backed⟩
    rw [backed.fresh hfresh 0]
    rfl
  | none =>
    simp only [call]
    rw [functional j.calls.length 0]
    cases hanswer : env.answer 0 (.ledger artifact id) with
    | error text => exact ⟨_, rfl, rfl, rfl, by simp, backed⟩
    | ok value =>
      refine ⟨_, rfl, rfl, rfl, by simp, fun entry hentry n => ?_⟩
      rcases Cache.mem_store hentry with hkept | rfl
      · exact backed entry hkept n
      · rw [functional n 0, hanswer]

end Inquiry

-- Both runs have the same collaborators around them, which answer the same at any time.
structure Pairing.Steady {ι : Type} (P : Pairing ι) (n : ι) : Prop where
  env : P.env' = P.env
  functional : P.env.Functional
  external : ∀ text, P.error n (.external text) (.external text)
  backed : ∀ {j j'}, P.journal n j j' → P.env.Backs j.cache ∧ P.env.Backs j'.cache
  consults : ∀ {j j' after after'}, P.journal n j j' → j.Consults P.env after →
    j'.Consults P.env after' → P.journal n after after'

namespace Pairing.Steady

open Inquiry

variable {ι : Type} [Preorder ι] {P : Pairing ι} {n : ι} (h : P.Steady n)
include h

theorem related {α : Type} {x y : Inquiry α} {result result' : Except Error α}
    (external : ∀ e, result = .error e → ∃ text, e = .external text)
    (hx : ComesTo P.env x result) (hy : ComesTo P.env y result') (same : result' = result) :
    Related P n (Still n (· = ·)) x y := by
  intro s s' j j' _ hj
  obtain ⟨hbacked, hbacked'⟩ := h.backed hj
  obtain ⟨after, hrun, hconsults⟩ := hx s j hbacked
  obtain ⟨after', hrun', hconsults'⟩ := hy s' j' hbacked'
  rw [h.env, hrun, hrun', same]
  refine ⟨n, le_refl n, h.consults hj hconsults hconsults', ?_⟩
  have hself : Concur (P.error n) (· = ·) result result := by
    refine .self fun e he => ?_
    obtain ⟨text, rfl⟩ := external e he
    exact h.external text
  exact hself.imp (fun _ _ hxy => hxy) fun _ _ hab => ⟨rfl, hab⟩

theorem asks : P.Asks n where
  config := by rw [h.env]
  call c _ := h.related (fun _ => Environment.reply_error) (call_comesTo h.functional c)
    (call_comesTo h.functional c) rfl
  ledger artifact id := h.related (fun _ => Environment.reply_error)
    (ledger_comesTo h.functional artifact id) (ledger_comesTo h.functional artifact id) rfl

end Pairing.Steady

end CredentialIssuance
