import CredentialIssuance.Proofs.Caching

namespace CredentialIssuance

namespace Cache

variable {ε : Type}

-- Among the calls of the ledger is the one that the entry came from, and it is the last one for its
-- key that did not fail.
def Entry.LatestIn (e : Entry) (fetches : List (Fetch ε)) : Prop :=
  ∃ earlier later, fetches = earlier ++ ⟨e.artifact, e.id, .ok e.value, e.fetchedAt⟩ :: later ∧
    ∀ f ∈ later, (f.artifact, f.id) = e.key → ∃ x, f.answer = .error x

-- What the bare ledger answers to a request.
def Request.answer (ledger : Artifact → String → Except ε String) :
    Request → Option (Except ε String)
  | .lookup artifact id => some (ledger artifact id)
  | .clear => none

theorem Entry.LatestIn.append {e : Entry} {fetches : List (Fetch ε)} (h : e.LatestIn fetches)
    {fetch : Fetch ε} (other : (fetch.artifact, fetch.id) = e.key → ∃ x, fetch.answer = .error x) :
    e.LatestIn (fetches ++ [fetch]) := by
  obtain ⟨earlier, later, rfl, hlater⟩ := h
  refine ⟨earlier, later ++ [fetch], by rw [List.append_assoc, List.cons_append], ?_⟩
  intro f hf
  rcases List.mem_append.1 hf with hold | hnew
  · exact hlater f hold
  · rw [List.mem_singleton.1 hnew]
    exact other

theorem Entry.LatestIn.mem {e : Entry} {fetches : List (Fetch ε)} (h : e.LatestIn fetches) :
    ∃ f ∈ fetches, (f.artifact, f.id) = e.key := by
  obtain ⟨earlier, later, rfl, -⟩ := h
  exact ⟨_, List.mem_append_right _ List.mem_cons_self, rfl⟩

def State.Backed (st : State ε) : Prop := ∀ e ∈ st.cache.entries, e.LatestIn st.history.fetches

section Turn

variable {s : Setting ε} {st after : State ε} {request : Request}
  {reply : Option (Except ε String)}

theorem State.Backed.turn (h : st.Backed) (sound : st.Sound s)
    (turn : Turn s st request reply after) : after.Backed := by
  cases turn with
  | cleared => exact fun e he => absurd he List.not_mem_nil
  | hit kept => exact h
  | failed stale asked => exact fun e he => (h e he).append fun _ => ⟨_, rfl⟩
  | @stored artifact id value stale asked =>
    intro e he
    obtain hempty | ⟨kept, hentries, hsub, -, hother⟩ := store_cases sound.bounded
      (s.clock (st.history.moment + 1)) artifact id value
    · rw [hempty] at he
      cases he
    rw [hentries, List.mem_append, List.mem_singleton] at he
    rcases he with hkept | rfl
    · exact (h e (hsub.subset hkept)).append fun hsame => absurd hsame.symm (hother e hkept)
    · exact ⟨_, [], rfl, fun f hf => absurd hf List.not_mem_nil⟩

-- Either a fresh entry is kept and answers, or the ledger is asked.

theorem Turn.answered (turn : Turn s st request reply after) (sound : st.Sound s) {e : Entry}
    (kept : st.Kept s e) (lookup : request = .lookup e.artifact e.id) :
    reply = some (.ok e.value) ∧ after.cache = st.cache ∧
      after.history.fetches = st.history.fetches := by
  cases turn with
  | cleared => cases lookup
  | @hit e' kept' =>
    have hkey : e'.key = e.key := by
      injection lookup with hartifact hid
      exact Prod.ext hartifact hid
    cases List.inj_on_of_nodup_map sound.distinct kept'.1 kept.1 hkey
    exact ⟨rfl, rfl, rfl⟩
  | failed stale asked =>
    cases lookup
    exact absurd rfl (stale e kept)
  | stored stale asked =>
    cases lookup
    exact absurd rfl (stale e kept)

theorem Turn.asked {artifact : Artifact} {id : String}
    (turn : Turn s st (.lookup artifact id) reply after)
    (stale : ∀ e, st.Kept s e → e.key ≠ (artifact, id)) :
    reply = some (s.ledger st.history.moment artifact id) ∧
      after.history.fetches = st.history.fetches ++ [⟨artifact, id,
        s.ledger st.history.moment artifact id, s.clock (st.history.moment + 1)⟩] := by
  generalize hrequest : Request.lookup artifact id = request at turn
  cases turn with
  | cleared => cases hrequest
  | @hit e kept =>
    cases hrequest
    exact absurd rfl (stale e kept)
  | failed _ asked =>
    cases hrequest
    rw [asked]
    exact ⟨rfl, rfl⟩
  | stored _ asked =>
    cases hrequest
    rw [asked]
    exact ⟨rfl, rfl⟩

-- What is answered comes from this look-up or from an earlier call whose entry is still fresh.
theorem Turn.traced (turn : Turn s st request reply after) (backed : st.Backed)
    {artifact : Artifact} {id value : String} (lookup : request = .lookup artifact id)
    (answered : reply = some (.ok value)) :
    (s.ledger st.history.moment artifact id = .ok value ∧
      after.history.fetches = st.history.fetches ++ [⟨artifact, id,
        s.ledger st.history.moment artifact id, s.clock (st.history.moment + 1)⟩]) ∨
    ∃ earlier time later,
      st.history.fetches = earlier ++ ⟨artifact, id, .ok value, time⟩ :: later ∧
      s.clock st.history.moment - time < s.config.ttl * 10 ^ 9 ∧
      ∀ f ∈ later, (f.artifact, f.id) = (artifact, id) → ∃ x, f.answer = .error x := by
  cases turn with
  | cleared => cases lookup
  | @hit e kept =>
    cases lookup
    cases answered
    obtain ⟨earlier, later, hfetches, hlater⟩ := backed e kept.1
    exact .inr ⟨earlier, e.fetchedAt, later, hfetches, kept.2, hlater⟩
  | failed stale asked => cases answered
  | stored stale asked =>
    cases lookup
    cases answered
    left
    rw [asked]
    exact ⟨rfl, rfl⟩

theorem Turn.ledger_of_error (turn : Turn s st request reply after) {artifact : Artifact}
    {id : String} {x : ε} (lookup : request = .lookup artifact id)
    (failed : reply = some (.error x)) : s.ledger st.history.moment artifact id = .error x := by
  cases turn with
  | cleared => cases lookup
  | hit kept => cases failed
  | failed stale asked =>
    cases lookup
    cases failed
    exact asked
  | stored stale asked => cases failed

-- Where the ledger always answers the same, so does every look-up.
theorem Turn.answer_eq (turn : Turn s st request reply after)
    {ledger : Artifact → String → Except ε String}
    (constant : ∀ n artifact id, s.ledger n artifact id = ledger artifact id)
    (backed : ∀ e ∈ st.cache.entries, ledger e.artifact e.id = .ok e.value) :
    reply = request.answer ledger ∧
      ∀ e ∈ after.cache.entries, ledger e.artifact e.id = .ok e.value := by
  cases turn with
  | cleared => exact ⟨rfl, nofun⟩
  | @hit e kept => exact ⟨congrArg some (backed e kept.1).symm, backed⟩
  | failed stale asked => exact ⟨congrArg some (asked.symm.trans (constant ..)), backed⟩
  | stored stale asked =>
    have hasked := (constant ..).symm.trans asked
    refine ⟨congrArg some hasked.symm, fun e he => ?_⟩
    rcases mem_store he with hold | rfl
    · exact backed e hold
    · exact hasked

end Turn

namespace Setting

variable (s : Setting ε)

theorem run_backed (requests : List Request) : (s.run requests).Backed :=
  s.run_turns requests nofun fun sound h turn => h.turn sound turn

theorem answers_eq {ledger : Artifact → String → Except ε String}
    (constant : ∀ n artifact id, s.ledger n artifact id = ledger artifact id)
    (requests : List Request) {st : State ε} (sound : st.Sound s)
    (backed : ∀ e ∈ st.cache.entries, ledger e.artifact e.id = .ok e.value) :
    s.answers st requests = requests.map (Request.answer ledger) := by
  induction requests generalizing st with
  | nil => rfl
  | cons request rest ih =>
    have turn : Turn s st request (s.perform request st).1 (s.perform request st).2 :=
      perform_turn sound.distinct rfl
    obtain ⟨hreply, hbacked⟩ := turn.answer_eq constant backed
    rw [answers, List.map_cons, hreply, ih (sound.turn turn) hbacked]

-- What is kept is the last answer of the ledger for its key. A look-up is answered from it while it
-- is younger than the time to live. Otherwise the ledger is asked, once, and its answer is passed
-- on and kept, while a failure leaves the cache alone. In front of a ledger that always answers the
-- same, every run is answered as by the ledger itself.
theorem transparent (requests : List Request) :
    let st := s.run requests
    (∀ e ∈ st.cache.entries, e.LatestIn st.history.fetches) ∧
    (∀ artifact id, ∃ reply after,
      s.perform (.lookup artifact id) st = (some reply, after) ∧
      let fetch : Fetch ε := ⟨artifact, id, s.ledger st.history.moment artifact id,
        s.clock (st.history.moment + 1)⟩
      (∀ e, st.Kept s e → e.key = (artifact, id) →
        reply = .ok e.value ∧ after.cache = st.cache ∧ after.history.fetches = st.history.fetches) ∧
      ((∀ e, st.Kept s e → e.key ≠ (artifact, id)) →
        reply = fetch.answer ∧ after.history.fetches = st.history.fetches ++ [fetch]) ∧
      (∀ value, reply = .ok value →
        (fetch.answer = .ok value ∧ after.history.fetches = st.history.fetches ++ [fetch]) ∨
        ∃ earlier time later,
          st.history.fetches = earlier ++ ⟨artifact, id, .ok value, time⟩ :: later ∧
          s.clock st.history.moment - time < s.config.ttl * 10 ^ 9 ∧
          ∀ f ∈ later, (f.artifact, f.id) = (artifact, id) → ∃ x, f.answer = .error x) ∧
      (∀ x, reply = .error x → fetch.answer = .error x ∧ after.cache = st.cache) ∧
      (∀ value, reply = .ok value → 0 < s.config.capacity →
        ∃ e ∈ after.cache.entries, e.key = (artifact, id) ∧ e.value = value) ∧
      ((∀ f ∈ st.history.fetches, f.id = id → f.artifact ≠ artifact) →
        reply = fetch.answer ∧ after.history.fetches = st.history.fetches ++ [fetch])) ∧
    ∀ ledger : Artifact → String → Except ε String,
      (∀ n artifact id, s.ledger n artifact id = ledger artifact id) →
        s.answers start requests = requests.map (Request.answer ledger) := by
  intro st
  have hsound := s.run_sound requests
  have hbacked := s.run_backed requests
  refine ⟨hbacked, fun artifact id => ?lookup, fun ledger constant =>
    s.answers_eq constant requests ⟨Nat.zero_le _, .nil⟩ nofun⟩
  obtain ⟨reply, after, hperform⟩ : ∃ reply after,
      s.perform (.lookup artifact id) st = (some reply, after) := ⟨_, _, rfl⟩
  have hturn := s.run_turn requests hperform
  have hmiss (stale : ∀ e, st.Kept s e → e.key ≠ (artifact, id)) :
      reply = s.ledger st.history.moment artifact id ∧
        after.history.fetches = st.history.fetches ++ [⟨artifact, id,
          s.ledger st.history.moment artifact id, s.clock (st.history.moment + 1)⟩] :=
    (hturn.asked stale).imp_left Option.some.inj
  refine ⟨reply, after, hperform, fun e kept hkey => ?hit, hmiss,
    fun value hvalue => hturn.traced hbacked rfl (congrArg some hvalue), fun x hx => ?failure,
    fun value hvalue hcapacity => ?kept, fun hothers => ?other⟩
  case hit =>
    obtain ⟨rfl, rfl⟩ := Prod.mk.inj hkey
    exact (hturn.answered hsound kept rfl).imp_left Option.some.inj
  case failure =>
    have hfailed := congrArg some hx
    exact ⟨hturn.ledger_of_error rfl hfailed, hturn.cache_of_error hfailed⟩
  case kept => exact hturn.kept_of_ok hsound.bounded hcapacity rfl (congrArg some hvalue)
  case other =>
    refine hmiss fun e kept hkey => ?_
    obtain ⟨f, hf, hsame⟩ := (hbacked e kept.1).mem
    obtain ⟨hartifact, hid⟩ := Prod.mk.inj (hsame.trans hkey)
    exact hothers f hf hid hartifact

-- A schema is kept for less than three seconds. After that the ledger has failed, and a credential
-- definition of the same name was never there.
theorem transparent_expired :
    let s : Setting String :=
      ⟨⟨3, 2⟩, fun n => if n < 4 then n else n * 10 ^ 9,
        fun n _ _ => if n < 4 then .ok "old" else .error "gone"⟩
    let schema : Request := .lookup .schema "1"
    (∃ reply after, s.perform schema (s.run [schema, schema]) = (some reply, after) ∧
      reply = .ok "old" ∧ after.history.fetches = (s.run [schema, schema]).history.fetches) ∧
    (∃ reply after, s.perform schema (s.run [schema, schema, schema]) = (some reply, after) ∧
      reply = .error "gone" ∧ after.cache = (s.run [schema, schema, schema]).cache) ∧
    ∃ reply after,
      s.perform (.lookup .credentialDefinition "1") (s.run [schema]) = (some reply, after) ∧
      reply = .ok "old" ∧ after.history.fetches.length = 2 := by
  intro s schema
  let e : Entry := ⟨.schema, "1", "old", 1⟩
  have hentries : (s.run [schema, schema, schema]).cache.entries = [e] := rfl
  refine ⟨?young, ?expired, ?other⟩
  case young =>
    obtain ⟨reply, after, hperform, hkept, -⟩ := (s.transparent [schema, schema]).2.1 .schema "1"
    have kept : (s.run [schema, schema]).Kept s e := ⟨List.mem_cons_self, by decide⟩
    obtain ⟨hreply, -, hfetches⟩ := hkept e kept rfl
    exact ⟨reply, after, hperform, hreply, hfetches⟩
  case expired =>
    obtain ⟨reply, after, hperform, -, hasked, -, hfailed, -⟩ :=
      (s.transparent [schema, schema, schema]).2.1 .schema "1"
    have stale : ∀ e, (s.run [schema, schema, schema]).Kept s e → e.key ≠ (.schema, "1") := by
      rintro e' ⟨he', hage⟩
      rw [hentries, List.mem_singleton] at he'
      rw [he'] at hage
      exact absurd hage (by decide)
    have hreply := (hasked stale).1
    exact ⟨reply, after, hperform, hreply, (hfailed "gone" hreply).2⟩
  case other =>
    obtain ⟨reply, after, hperform, -, -, -, -, -, hothers⟩ :=
      (s.transparent [schema]).2.1 .credentialDefinition "1"
    obtain ⟨hreply, hfetches⟩ := hothers (by decide)
    exact ⟨reply, after, hperform, hreply, by rw [hfetches]; rfl⟩

end Setting

end Cache

end CredentialIssuance
