import CredentialIssuance.Ledger.Cache
import Mathlib.Algebra.Group.Nat.Defs
import Mathlib.Data.List.Nodup

namespace CredentialIssuance

namespace Cache

-- An answer of the ledger with the time at which it came.
structure Fetch (ε : Type) where
  artifact : Artifact
  id : String
  answer : Except ε String
  time : Nat

-- What has happened: how many moments have gone by, and which calls the ledger has had.
structure History (ε : Type) where
  moment : Nat
  fetches : List (Fetch ε)

-- Where a cache is used. Every request and every call of the ledger takes one moment, so neither
-- the clock nor the ledger need ever say the same twice.
structure Setting (ε : Type) where
  config : CacheConfig
  clock : Nat → Nat
  ledger : Nat → Artifact → String → Except ε String

inductive Request where
  | lookup (artifact : Artifact) (id : String)
  | clear
  deriving DecidableEq

structure State (ε : Type) where
  cache : Cache
  history : History ε

def Entry.key (e : Entry) : Artifact × String := (e.artifact, e.id)

section Entries

variable {c : Cache} {config : CacheConfig} {now : Nat} {artifact : Artifact} {id value : String}

@[simp] theorem Entry.isFor_eq (e : Entry) :
    e.isFor artifact id = decide (e.key = (artifact, id)) := by
  simp [isFor, key]

theorem find?_eq_none_iff :
    c.find? artifact id = none ↔ ∀ e ∈ c.entries, e.key ≠ (artifact, id) := by
  simp [find?]

theorem find?_eq_some {e : Entry} (h : c.find? artifact id = some e) :
    e ∈ c.entries ∧ e.key = (artifact, id) :=
  ⟨List.mem_of_find?_eq_some h, by simpa using List.find?_some h⟩

-- There is one entry for a key, so the first one found is the one.
theorem fresh?_eq_some_iff (distinct : (c.entries.map Entry.key).Nodup) :
    c.fresh? config now artifact id = some value ↔
      ∃ e ∈ c.entries, e.key = (artifact, id) ∧ e.isFresh config now = true ∧ e.value = value := by
  unfold fresh?
  cases hfind : c.find? artifact id with
  | none =>
    have habsent := find?_eq_none_iff.1 hfind
    simp only [reduceCtorEq, false_iff]
    rintro ⟨e, he, hkey, -⟩
    exact habsent e he hkey
  | some e =>
    obtain ⟨he, hkey⟩ := find?_eq_some hfind
    have honly : ∀ e' ∈ c.entries, e'.key = (artifact, id) → e' = e := fun e' he' hkey' =>
      List.inj_on_of_nodup_map distinct he' he (hkey'.trans hkey.symm)
    simp only [Option.ite_none_right_eq_some, Option.some.injEq]
    constructor
    · rintro ⟨hfresh, hvalue⟩
      exact ⟨e, he, hkey, hfresh, hvalue⟩
    · rintro ⟨e', he', hkey', hfresh, hvalue⟩
      cases honly e' he' hkey'
      exact ⟨hfresh, hvalue⟩

-- What is stored.

theorem evict_lt (hcapacity : 0 < config.capacity) (entries : List Entry) :
    (evict config.capacity entries).length < config.capacity := by
  fun_induction evict config.capacity entries with
  | case1 entries hend =>
    by_contra hfull
    have hpos : entries ≠ [] := by
      rintro rfl
      exact hfull hcapacity
    rw [evict?, if_neg hfull, List.minOn?_eq_some_minOn hpos] at hend
    cases hend
  | case2 entries rest hpass hless ih => exact ih

theorem room_lt (hcapacity : 0 < config.capacity) (now : Nat) (entries : List Entry) :
    (room config now entries).length < config.capacity := by
  unfold room
  split
  · assumption
  · exact evict_lt hcapacity _

theorem store_absent (hcapacity : 0 < config.capacity)
    (absent : ∀ e ∈ c.entries, e.key ≠ (artifact, id)) (now : Nat) (value : String) :
    (c.store config now artifact id value).entries =
      room config now c.entries ++ [⟨artifact, id, value, now⟩] := by
  unfold store
  rw [if_neg (Nat.ne_of_gt hcapacity), find?_eq_none_iff.2 absent]

theorem store_present (hcapacity : 0 < config.capacity) {e : Entry} (he : e ∈ c.entries)
    (hkey : e.key = (artifact, id)) (now : Nat) (value : String) :
    (c.store config now artifact id value).entries =
      c.entries.filter (fun e => e.key ≠ (artifact, id)) ++ [⟨artifact, id, value, now⟩] := by
  unfold store
  rw [if_neg (Nat.ne_of_gt hcapacity)]
  cases hfind : c.find? artifact id with
  | none => exact absurd hkey (find?_eq_none_iff.1 hfind e he)
  | some e' =>
    refine congrArg (· ++ _) (List.filter_congr fun e _ => ?_)
    rw [Bool.eq_iff_iff]
    simp

-- What is stored comes last, after some of the entries of other keys.
theorem store_entries (hcapacity : 0 < config.capacity) (hsize : c.size ≤ config.capacity)
    (now : Nat) (artifact : Artifact) (id value : String) :
    ∃ kept, (c.store config now artifact id value).entries = kept ++ [⟨artifact, id, value, now⟩] ∧
      kept.Sublist c.entries ∧ kept.length < config.capacity ∧
      ∀ e ∈ kept, e.key ≠ (artifact, id) := by
  by_cases hpresent : ∃ e ∈ c.entries, e.key = (artifact, id)
  · obtain ⟨e, he, hkey⟩ := hpresent
    refine ⟨_, store_present hcapacity he hkey now value, List.filter_sublist, ?_, ?_⟩
    · refine Nat.lt_of_lt_of_le ?_ hsize
      exact List.length_filter_lt_length_iff_exists.2 ⟨e, he, by simpa using hkey⟩
    · intro e' he'
      simpa using (List.mem_filter.1 he').2
  · have absent : ∀ e ∈ c.entries, e.key ≠ (artifact, id) := by simpa using hpresent
    have hsub := sublist_room config now c.entries
    exact ⟨_, store_absent hcapacity absent now value, hsub, room_lt hcapacity now c.entries,
      fun e he => absent e (hsub.subset he)⟩

-- A cache without capacity stays empty.
theorem store_cases (hsize : c.size ≤ config.capacity) (now : Nat) (artifact : Artifact)
    (id value : String) :
    (c.store config now artifact id value).entries = [] ∨
    ∃ kept, (c.store config now artifact id value).entries = kept ++ [⟨artifact, id, value, now⟩] ∧
      kept.Sublist c.entries ∧ kept.length < config.capacity ∧
      ∀ e ∈ kept, e.key ≠ (artifact, id) := by
  rcases Nat.eq_zero_or_pos config.capacity with hzero | hcapacity
  · left
    rw [store, if_pos hzero]
    exact List.length_eq_zero_iff.1 (Nat.le_zero.1 (hzero ▸ hsize))
  · exact .inr (store_entries hcapacity hsize now artifact id value)

end Entries

variable {ε : Type}

namespace Setting

variable (s : Setting ε)

-- A call of the ledger. Its answer is there one moment later.
def ask (artifact : Artifact) (id : String) (h : History ε) : Except ε String × History ε :=
  let answer := s.ledger h.moment artifact id
  (answer, ⟨h.moment + 1, h.fetches ++ [⟨artifact, id, answer, s.clock (h.moment + 1)⟩]⟩)

-- A request, with the answer to it if it is a look-up.
def perform (request : Request) (st : State ε) : Option (Except ε String) × State ε :=
  match request with
  | .clear => (none, ⟨Cache.empty, { st.history with moment := st.history.moment + 1 }⟩)
  | .lookup artifact id =>
    let (answer, cache, history) :=
      st.cache.lookup s.config (fun h => s.clock h.moment) s.ask artifact id st.history
    (some answer, ⟨cache, { history with moment := history.moment + 1 }⟩)

def start : State ε := ⟨Cache.empty, ⟨0, []⟩⟩

-- The state in which a run ends.
def run (requests : List Request) : State ε :=
  requests.foldl (fun st request => (s.perform request st).2) start

-- The answers to the requests of a run.
def answers : State ε → List Request → List (Option (Except ε String))
  | _, [] => []
  | st, request :: rest => (s.perform request st).1 :: answers (s.perform request st).2 rest

-- What holds at the start and is kept by every request holds after every run.
theorem run_induction {P : State ε → Prop} (hstart : P start)
    (hstep : ∀ st request, P st → P (s.perform request st).2) (requests : List Request) :
    P (s.run requests) := by
  have hall : ∀ (requests : List Request) (st : State ε), P st →
      P (requests.foldl (fun st request => (s.perform request st).2) st) := by
    intro requests
    induction requests with
    | nil => exact fun _ h => h
    | cons request rest ih => exact fun st h => ih _ (hstep st request h)
  exact hall requests start hstart

end Setting

-- The kept answer to a look-up, if it is fresh.
def State.Kept (s : Setting ε) (st : State ε) (e : Entry) : Prop :=
  e ∈ st.cache.entries ∧ s.clock st.history.moment - e.fetchedAt < s.config.ttl * 10 ^ 9

-- What a request does: it clears the cache, is answered from it, or asks the ledger, whose answer
-- is kept unless it is a failure.
inductive Turn (s : Setting ε) (st : State ε) :
    Request → Option (Except ε String) → State ε → Prop
  | cleared :
      Turn s st .clear none ⟨Cache.empty, ⟨st.history.moment + 1, st.history.fetches⟩⟩
  | hit {e : Entry} (kept : st.Kept s e) :
      Turn s st (.lookup e.artifact e.id) (some (.ok e.value))
        ⟨st.cache, ⟨st.history.moment + 1, st.history.fetches⟩⟩
  | failed {artifact : Artifact} {id : String} {x : ε}
      (stale : ∀ e, st.Kept s e → e.key ≠ (artifact, id))
      (asked : s.ledger st.history.moment artifact id = .error x) :
      Turn s st (.lookup artifact id) (some (.error x))
        ⟨st.cache, ⟨st.history.moment + 2, st.history.fetches ++
          [⟨artifact, id, .error x, s.clock (st.history.moment + 1)⟩]⟩⟩
  | stored {artifact : Artifact} {id value : String}
      (stale : ∀ e, st.Kept s e → e.key ≠ (artifact, id))
      (asked : s.ledger st.history.moment artifact id = .ok value) :
      Turn s st (.lookup artifact id) (some (.ok value))
        ⟨st.cache.store s.config (s.clock (st.history.moment + 1)) artifact id value,
          ⟨st.history.moment + 2, st.history.fetches ++
            [⟨artifact, id, .ok value, s.clock (st.history.moment + 1)⟩]⟩⟩

theorem Setting.perform_turn {s : Setting ε} {st after : State ε} {request : Request}
    {reply : Option (Except ε String)} (distinct : (st.cache.entries.map Entry.key).Nodup)
    (h : s.perform request st = (reply, after)) : Turn s st request reply after := by
  cases request with
  | clear =>
    cases h
    exact .cleared
  | lookup artifact id =>
    simp only [perform, Cache.lookup] at h
    cases hfresh : st.cache.fresh? s.config (s.clock st.history.moment) artifact id with
    | some value =>
      obtain ⟨e, he, hkey, hkept, rfl⟩ := (fresh?_eq_some_iff distinct).1 hfresh
      obtain ⟨rfl, rfl⟩ := Prod.mk.inj hkey
      rw [hfresh] at h
      cases h
      exact .hit ⟨he, of_decide_eq_true hkept⟩
    | none =>
      have stale : ∀ e, st.Kept s e → e.key ≠ (artifact, id) := by
        rintro e ⟨he, hage⟩ hkey
        have hsome := (fresh?_eq_some_iff distinct).2 ⟨e, he, hkey, decide_eq_true hage, rfl⟩
        cases hfresh.symm.trans hsome
      rw [hfresh, ask] at h
      cases hasked : s.ledger st.history.moment artifact id with
      | error x =>
        simp only [hasked] at h
        cases h
        exact .failed stale hasked
      | ok value =>
        simp only [hasked] at h
        cases h
        exact .stored stale hasked

section Turn

variable {s : Setting ε} {st after : State ε} {request : Request}
  {reply : Option (Except ε String)}

-- A look-up for which the ledger is not asked, and one for which it fails, leave all as it is.

theorem Turn.cache_of_quiet (turn : Turn s st request reply after) (lookup : request ≠ .clear)
    (quiet : after.history.fetches = st.history.fetches) : after.cache = st.cache := by
  cases turn with
  | cleared => exact absurd rfl lookup
  | hit kept => rfl
  | failed stale asked => rfl
  | stored stale asked => simp at quiet

theorem Turn.cache_of_error (turn : Turn s st request reply after) {x : ε}
    (failed : reply = some (.error x)) : after.cache = st.cache := by
  cases turn with
  | cleared => cases failed
  | hit kept => cases failed
  | failed stale asked => rfl
  | stored stale asked => cases failed

-- An answer that has been given is kept.
theorem Turn.kept_of_ok (turn : Turn s st request reply after)
    (bounded : st.cache.size ≤ s.config.capacity) (hcapacity : 0 < s.config.capacity)
    {artifact : Artifact} {id value : String}
    (lookup : request = .lookup artifact id) (answered : reply = some (.ok value)) :
    ∃ e ∈ after.cache.entries, e.key = (artifact, id) ∧ e.value = value := by
  cases turn with
  | cleared => cases lookup
  | @hit e kept =>
    cases lookup
    cases answered
    exact ⟨e, kept.1, rfl, rfl⟩
  | failed stale asked => cases answered
  | stored stale asked =>
    cases lookup
    cases answered
    obtain ⟨kept, hentries, -⟩ := store_entries hcapacity bounded
      (s.clock (st.history.moment + 1)) artifact id value
    exact ⟨_, hentries ▸ List.mem_append_right _ (List.mem_singleton_self _), rfl, rfl⟩

end Turn

-- A cache keeps to its capacity, with one entry for a key.
structure State.Sound (s : Setting ε) (st : State ε) : Prop where
  bounded : st.cache.size ≤ s.config.capacity
  distinct : (st.cache.entries.map Entry.key).Nodup

theorem State.Sound.turn {s : Setting ε} {st after : State ε} {request : Request}
    {reply : Option (Except ε String)} (h : st.Sound s) (turn : Turn s st request reply after) :
    after.Sound s := by
  cases turn with
  | cleared => exact ⟨Nat.zero_le _, .nil⟩
  | hit kept => exact ⟨h.bounded, h.distinct⟩
  | failed stale asked => exact ⟨h.bounded, h.distinct⟩
  | @stored artifact id value stale asked =>
    obtain hempty | ⟨kept, hentries, hsub, hlength, hother⟩ := store_cases h.bounded
      (s.clock (st.history.moment + 1)) artifact id value
    · constructor
      · rw [size, hempty]
        exact Nat.zero_le _
      · rw [hempty]
        exact .nil
    constructor
    · rw [size, hentries, List.length_append]
      exact hlength
    · rw [hentries, List.map_append, List.nodup_append]
      refine ⟨h.distinct.sublist (hsub.map _), List.nodup_singleton _, ?_⟩
      intro key hkey key' hkey' hsame
      obtain ⟨e, he, rfl⟩ := List.mem_map.1 hkey
      exact hother e he (hsame.trans (List.mem_singleton.1 hkey'))

namespace Setting

variable (s : Setting ε) (requests : List Request)

theorem run_sound : (s.run requests).Sound s :=
  s.run_induction ⟨Nat.zero_le _, .nil⟩ (fun _ _ h => h.turn (perform_turn h.distinct rfl)) requests

-- What holds at the start and is kept by every turn holds after every run.
theorem run_turns {P : State ε → Prop} (hstart : P start)
    (hturn : ∀ {st request reply after}, st.Sound s → P st → Turn s st request reply after →
      P after) : P (s.run requests) := by
  have hboth : (s.run requests).Sound s ∧ P (s.run requests) := by
    refine s.run_induction (P := fun st => st.Sound s ∧ P st)
      ⟨⟨Nat.zero_le _, .nil⟩, hstart⟩ ?_ requests
    rintro st request ⟨hsound, h⟩
    have turn : Turn s st request _ _ := perform_turn hsound.distinct rfl
    exact ⟨hsound.turn turn, hturn hsound h turn⟩
  exact hboth.2

theorem run_turn {request : Request} {reply : Option (Except ε String)} {after : State ε}
    (h : s.perform request (s.run requests) = (reply, after)) :
    Turn s (s.run requests) request reply after :=
  perform_turn (s.run_sound requests).distinct h

end Setting

end Cache

end CredentialIssuance
