import CredentialIssuance.Proofs.Commit

namespace CredentialIssuance

namespace Inquiry

variable {α β : Type} {env : Environment} {s : Stores}

-- The inquiry ends with a value of the one kind or with an error of the other.
def Ends (env : Environment) (s : Stores) (x : Inquiry α) (Q : α → Prop) (E : Error → Prop) : Prop :=
  ∀ journal, match (x env s journal).1 with
    | .ok a => Q a
    | .error e => E e

namespace Ends

variable {x : Inquiry α} {f : α → Inquiry β} {Q : α → Prop} {R : β → Prop} {E : Error → Prop}

theorem pure {a : α} (h : Q a) : Ends env s (pure a) Q E := fun _ => h

theorem bind (hx : Ends env s x Q E) (hf : ∀ a, Q a → Ends env s (f a) R E) :
    Ends env s (x >>= f) R E := by
  intro journal
  have hfirst := hx journal
  rw [bind_apply]
  cases hrun : x env s journal with
  | mk result between =>
    rw [hrun] at hfirst
    cases result with
    | error e => exact hfirst
    | ok a => exact hf a hfirst between

theorem lift {y : Except Error α} (hok : ∀ a, y = .ok a → Q a) (herror : ∀ e, y = .error e → E e) :
    Ends env s (liftM y : Inquiry α) Q E := by
  cases y with
  | ok a => exact fun _ => hok a rfl
  | error e => exact fun _ => herror e rfl

-- A step that is known to succeed.
theorem lift_bind {y : Except Error α} {a : α} (h : y = .ok a) (hf : Ends env s (f a) R E) :
    Ends env s ((liftM y : Inquiry α) >>= f) R E := by
  subst h
  exact hf

theorem require {found : Option α} {what : Missing} (hsome : ∀ a, found = some a → Q a)
    (hnone : found = none → E (.notFound what)) : Ends env s (require found what) Q E := by
  cases found with
  | none => exact fun _ => hnone rfl
  | some a => exact .pure (hsome a rfl)

-- What has been found already.
theorem require_bind {a : α} {what : Missing} (h : Ends env s (f a) R E) :
    Ends env s (Inquiry.require (some a) what >>= f) R E := h

theorem reply (thread : String) : Ends env s (reply thread) (fun _ => True) E := fun _ => trivial

theorem newThread : Ends env s newThread (fun _ => True) E := fun _ => trivial

theorem newRecord (role : Role) (version : Version) (state : State) (thread connection : String) :
    Ends env s (newRecord role version state thread connection) (fun _ => True) E :=
  fun _ => trivial

theorem config : Ends env s config (· = env.config) E := fun _ => rfl

section Collaborators

variable (external : ∀ x, env.Causes x → E x)

include external

-- A call whose answers are known.
theorem call_answers {c : Call} {Q : c.Answer → Prop} (h : ∀ n a, env.answer n c = .ok a → Q a) :
    Ends env s (call c) Q E := by
  intro journal
  simp only [Inquiry.call]
  cases hanswer : env.answer journal.calls.length c with
  | ok a => exact h _ a hanswer
  | error text => exact external _ ⟨_, c, text, hanswer, rfl⟩

theorem call (c : Call) : Ends env s (call c) (fun _ => True) E :=
  .call_answers external fun _ _ _ => trivial

theorem ledger (artifact : Artifact) (id : String) :
    Ends env s (ledger artifact id) (fun _ => True) E := by
  intro journal
  simp only [Inquiry.ledger, Cache.lookup, Inquiry.call]
  cases journal.cache.fresh? env.config.cache (env.clock journal.calls.length) artifact id with
  | some value => trivial
  | none =>
    cases hanswer : env.answer journal.calls.length (.ledger artifact id) with
    | ok a => trivial
    | error text => exact external _ ⟨_, _, text, hanswer, rfl⟩

theorem registry (id : Option String) :
    Ends env s (Holder.registry id) (fun _ => True) E := by
  cases id with
  | none => exact .pure trivial
  | some id => exact .bind (.ledger external _ _) fun _ _ => .pure trivial

theorem requesterDid (e : Exchange) (did : Option String) :
    Ends env s (Holder.requesterDid e did) (fun _ => True) E := by
  cases did with
  | some did => exact .pure trivial
  | none => exact .bind (.call external _) fun connection _ => .pure trivial

theorem record (shows : env.Shows) {id : String} {e : Exchange} (h : s.record? id = some e) :
    Ends env s (record id) (· = e) E := by
  intro journal
  cases hrun : Inquiry.record id env s journal with
  | mk result after =>
    cases result with
    | ok found => exact Option.some.inj ((record_eq_ok_iff.1 hrun).2.1.symm.trans h)
    | error x =>
      rcases record_error_cases hrun with hcaused | ⟨-, hmissing⟩
      · exact external x hcaused
      · cases (hmissing shows).symm.trans h

theorem lockedRecord (shows : env.Shows) {id : String} {e : Exchange} (h : s.record? id = some e) :
    Ends env s (lockedRecord id) (· = e) E :=
  .bind (.record external shows h) fun _ _ => .record external shows h

-- A record that is looked up by its identifier and found to be as it should.
theorem owned (shows : env.Shows) {e : Exchange} {id : String} {version : Version} {role : Role}
    {state : State} {g : Exchange → Inquiry β} (h : s.record? id = some e)
    (hversion : e.version = version) (hrole : e.role = role) (hstate : e.state = state)
    (hg : Ends env s (g e) R E) :
    Ends env s (do
      let found ← Inquiry.lockedRecord id
      found.assertVersion version
      found.assertRole role
      found.assertState [state]
      g found) R E := by
  refine .bind (.lockedRecord external shows h) ?_
  rintro _ rfl
  refine .lift_bind (if_pos hversion) (.lift_bind (if_pos hrole) (.lift_bind (if_pos ?_) hg))
  exact List.mem_singleton.2 hstate

-- A look-up by thread ends as the selection among what is on the thread.
theorem onThread {thread : String} {role : Option Role} {connection : Option String}
    {Q : Option Exchange → Prop}
    (hok : ∀ found, select thread role connection (s.onThread thread) = .ok found → Q found)
    (herror : ∀ e, select thread role connection (s.onThread thread) = .error e → E e) :
    Ends env s (onThread thread role connection) Q E := by
  refine .bind (.call external _) fun _ _ => .bind (Q := (· = s)) (fun _ => rfl) ?_
  rintro _ rfl
  exact .lift hok herror

theorem onThread_eq {thread : String} {role : Option Role} {connection : Option String}
    {found : Option Exchange} (h : select thread role connection (s.onThread thread) = .ok found) :
    Ends env s (Inquiry.onThread thread role connection) (· = found) E := by
  refine .onThread external (fun _ hok => ?_) fun _ herror => ?_
  · exact Except.ok.inj (hok.symm.trans h)
  · cases herror.symm.trans h

theorem message? {e : Exchange} {kind : Kind} {m : Message} (h : s.Holds e kind m) :
    Ends env s (message? e kind) (· = some m) E := by
  obtain ⟨value, hvalue, hread⟩ := h
  refine .bind (.call external _) fun _ _ => .bind (Q := (· = s)) (fun _ => rfl) ?_
  rintro _ rfl
  simp only [hvalue]
  exact .lift_bind hread (.pure rfl)

theorem message {e : Exchange} {kind : Kind} {m : Message} (h : s.Holds e kind m) :
    Ends env s (message e kind) (· = m) E := by
  refine .bind (.message? external h) ?_
  rintro _ rfl
  exact .pure rfl

end Collaborators

end Ends

-- Whatever has been asked before.
def Yields (env : Environment) (s : Stores) (x : Inquiry α) (Q : α → Prop) : Prop :=
  ∀ journal, match (x env s journal).1 with
    | .ok a => Q a
    | .error e => e.isExternal = true

namespace Yields

variable {x : Inquiry α} {f : α → Inquiry β} {Q : α → Prop} {R : β → Prop}

theorem bind (hx : Yields env s x Q) (hf : ∀ a, Q a → Yields env s (f a) R) :
    Yields env s (x >>= f) R := Ends.bind hx hf

theorem record (shows : env.Shows) {id : String} {e : Exchange} (h : s.record? id = some e) :
    Yields env s (record id) (· = e) := Ends.record (fun _ => (·.isExternal)) shows h

theorem message? {e : Exchange} {kind : Kind} {m : Message} (h : s.Holds e kind m) :
    Yields env s (message? e kind) (· = some m) := Ends.message? (fun _ => (·.isExternal)) h

end Yields

end Inquiry

-- A stored message that can be read is found.
theorem findMessage_yields {env : Environment} {s : Stores} (shows : env.Shows) {e : Exchange}
    {kind : Kind} {m : Message} (hstored : s.record? e.id = some e) (h : s.Holds e kind m) :
    Inquiry.Yields env s (findMessage e.id kind) (· = some m) := by
  refine .bind (.record shows hstored) ?_
  rintro _ rfl
  exact .message? h

end CredentialIssuance
