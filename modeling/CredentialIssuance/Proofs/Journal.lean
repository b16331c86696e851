import CredentialIssuance.Agent.Response

namespace CredentialIssuance

-- Calls by which an agent changes its stores or speaks to the outside.
def Call.isEffect : Call → Bool
  | .put _ | .saveMessage .. | .publish _ | .send .. => true
  | _ => false

namespace Journal

def asked (j : Journal) (c : Call) : Journal := { j with calls := j.calls ++ [c] }

def effects (j : Journal) : List Call := j.calls.filter Call.isEffect

-- The record that the call with this number stored, if it was a call to put one and worked.
def storedBy (env : Environment) (call : Call × Nat) : Option Exchange :=
  match call.1 with
  | .put record =>
    match env.answer call.2 (.put record) with
    | .ok _ => some record
    | .error _ => none
  | _ => none

-- The records stored so far, oldest first.
def puts (env : Environment) (j : Journal) : List Exchange :=
  j.calls.zipIdx.filterMap (storedBy env)

-- What has come into the cache are answers of the ledger.
def Caches (env : Environment) (before after : Journal) : Prop :=
  ∀ entry ∈ after.cache.entries, entry ∈ before.cache.entries ∨
    ∃ n, env.answer n (.ledger entry.artifact entry.id) = .ok entry.value

theorem Caches.refl (env : Environment) (j : Journal) : j.Caches env j :=
  fun _ hentry => .inl hentry

theorem Caches.trans {env : Environment} {a b c : Journal} (first : a.Caches env b)
    (second : b.Caches env c) : a.Caches env c :=
  fun entry hentry => (second entry hentry).elim (first entry) .inr

-- A later journal in which nothing but asking and looking up has been added.
structure Extends (env : Environment) (before after : Journal) : Prop where
  calls : ∃ made, after.calls = before.calls ++ made ∧ ∀ c ∈ made, c.isEffect = false
  threads : before.threads ≤ after.threads
  exchanges : before.exchanges ≤ after.exchanges
  messages : before.messages ≤ after.messages
  caches : before.Caches env after

section Extends

variable {env : Environment} {before after : Journal}

theorem Extends.refl (j : Journal) : j.Extends env j :=
  ⟨⟨[], by simp⟩, Nat.le_refl _, Nat.le_refl _, Nat.le_refl _, .refl env j⟩

theorem Extends.trans {a b c : Journal} (first : a.Extends env b) (second : b.Extends env c) :
    a.Extends env c := by
  obtain ⟨made, hmade, hread⟩ := first.calls
  obtain ⟨more, hmore, hread'⟩ := second.calls
  refine ⟨⟨made ++ more, by rw [hmore, hmade, List.append_assoc], ?_⟩,
    Nat.le_trans first.threads second.threads, Nat.le_trans first.exchanges second.exchanges,
    Nat.le_trans first.messages second.messages, first.caches.trans second.caches⟩
  intro c hc
  exact (List.mem_append.1 hc).elim (hread c) (hread' c)

theorem Extends.asked (j : Journal) {c : Call} (read : c.isEffect = false) :
    j.Extends env (j.asked c) :=
  ⟨⟨[c], rfl, by simpa using read⟩, Nat.le_refl _, Nat.le_refl _, Nat.le_refl _, .refl env j⟩

theorem effects_asked (j : Journal) (c : Call) :
    (j.asked c).effects = j.effects ++ if c.isEffect then [c] else [] := by
  rw [effects, asked, List.filter_append, effects]
  cases hc : c.isEffect <;> simp [hc]

theorem Extends.effects (h : before.Extends env after) :
    after.effects = before.effects := by
  obtain ⟨made, hmade, hread⟩ := h.calls
  have hnone : made.filter Call.isEffect = [] := by simpa using hread
  rw [Journal.effects, hmade, List.filter_append, hnone, List.append_nil, Journal.effects]

theorem storedBy_eq_none (env : Environment) {call : Call × Nat} (read : call.1.isEffect = false) :
    storedBy env call = none := by
  obtain ⟨c, n⟩ := call
  cases c <;> first | rfl | cases read

theorem puts_asked (env : Environment) (j : Journal) (c : Call) :
    (j.asked c).puts env = j.puts env ++ (storedBy env (c, j.calls.length)).toList := by
  rw [puts, asked, List.zipIdx_append, List.filterMap_append, Nat.zero_add, puts]
  cases hstored : storedBy env (c, j.calls.length) <;> simp [hstored]

theorem Extends.puts (h : before.Extends env after) : after.puts env = before.puts env := by
  obtain ⟨made, hmade, hread⟩ := h.calls
  have hnone : (made.zipIdx before.calls.length).filterMap (storedBy env) = [] := by
    rw [List.filterMap_eq_nil_iff]
    intro call hcall
    exact storedBy_eq_none env (hread _ (List.fst_mem_of_mem_zipIdx hcall))
  rw [Journal.puts, hmade, List.zipIdx_append, List.filterMap_append, Nat.zero_add, hnone,
    List.append_nil, Journal.puts]

end Extends

end Journal

end CredentialIssuance
