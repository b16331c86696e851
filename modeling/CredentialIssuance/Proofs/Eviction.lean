import CredentialIssuance.Proofs.Caching
import Mathlib.Logic.Relation
import Mathlib.Order.Monotone.Basic

namespace CredentialIssuance

namespace Cache

-- No entry for the key is left.
def Entry.Gone (e : Entry) (after : Cache) : Prop := ∀ e' ∈ after.entries, e'.key ≠ e.key

def Entry.Expired (config : CacheConfig) (now : Nat) (e : Entry) : Prop :=
  config.ttl * 10 ^ 9 ≤ now - e.fetchedAt

instance (config : CacheConfig) (now : Nat) (e : Entry) : Decidable (e.Expired config now) :=
  inferInstanceAs (Decidable (_ ≤ _))

-- All others have been fetched later.
def Entry.OldestIn (e : Entry) (entries : List Entry) : Prop :=
  ∀ e' ∈ entries, e' ≠ e → e.fetchedAt < e'.fetchedAt

-- One entry is fetched after the other.
def Ordered (entries : List Entry) : Prop :=
  entries.Pairwise fun e e' => e.fetchedAt < e'.fetchedAt

section Loop

variable {capacity : Nat} {entries : List Entry}

-- The loop comes to an end, where no further pass is possible.
theorem evict_passes (capacity : Nat) (entries : List Entry) :
    Relation.ReflTransGen (fun l rest => evict? capacity l = some rest) entries
      (evict capacity entries) ∧ evict? capacity (evict capacity entries) = none := by
  fun_induction evict capacity entries with
  | case1 entries hend => exact ⟨.refl, hend⟩
  | case2 entries rest hpass hless ih => exact ⟨.head hpass ih.1, ih.2⟩

theorem evict_of_lt (h : entries.length < capacity) : evict capacity entries = entries := by
  have hend : evict? capacity entries = none := if_pos h
  unfold evict
  split
  · rfl
  · next rest hpass => cases hend.symm.trans hpass

-- In a cache that is exactly full there is one pass.
theorem evict_of_eq (h : entries.length = capacity) {oldest : Entry}
    (holdest : entries.minOn? Entry.fetchedAt = some oldest) :
    evict capacity entries = entries.erase oldest := by
  have hpass : evict? capacity entries = some (entries.erase oldest) :=
    evict?_eq_some_iff.2 ⟨h.ge, oldest, holdest, rfl⟩
  have hlength := length_evict? hpass
  unfold evict
  split
  · next hend => cases hpass.symm.trans hend
  · next rest hrest =>
    cases hpass.symm.trans hrest
    exact evict_of_lt (by omega)

end Loop

section Room

variable {config : CacheConfig} {now : Nat} {entries : List Entry} {e : Entry}

theorem Entry.isFresh_iff : e.isFresh config now = true ↔ ¬ e.Expired config now := by
  have hnano : Nat.pow 10 9 = 10 ^ 9 := rfl
  rw [isFresh, Expired, decide_eq_true_iff, hnano, Nat.not_le]

theorem Ordered.nodup (ordered : Ordered entries) : (entries.map Entry.fetchedAt).Nodup :=
  List.pairwise_map.2 (ordered.imp Nat.ne_of_lt)

theorem Ordered.oldestIn (ordered : Ordered entries)
    (h : entries.minOn? Entry.fetchedAt = some e) : e.OldestIn entries := by
  intro e' he' hne
  have hle : e.fetchedAt ≤ e'.fetchedAt := by
    have hmin := List.apply_get_minOn?_le_of_mem (f := Entry.fetchedAt) he'
    simpa only [h, Option.get_some] using hmin
  refine Nat.lt_of_le_of_ne hle fun hsame => hne ?_
  exact List.inj_on_of_nodup_map ordered.nodup he' (List.minOn?_mem h) hsame.symm

theorem Ordered.oldestIn_iff (ordered : Ordered entries) {oldest : Entry}
    (h : entries.minOn? Entry.fetchedAt = some oldest) (he : e ∈ entries) :
    e.OldestIn entries ↔ e = oldest := by
  constructor
  · intro hmin
    by_contra hne
    have hlt := hmin oldest (List.minOn?_mem h) (Ne.symm hne)
    have hgt := ordered.oldestIn h e he hne
    omega
  · rintro rfl
    exact ordered.oldestIn h

theorem length_fresh_lt (he : e ∈ entries) (hexpired : e.Expired config now) :
    (entries.filter (Entry.isFresh config now)).length < entries.length := by
  refine List.length_filter_lt_length_iff_exists.2 ⟨e, he, ?_⟩
  rw [Entry.isFresh_iff]
  exact not_not_intro hexpired

-- Who makes room in a full cache: the expired entries, or else the oldest one.
theorem mem_room_iff (full : entries.length = config.capacity) (ordered : Ordered entries)
    (he : e ∈ entries) :
    e ∈ room config now entries ↔
      ¬ (e.Expired config now ∨
        (∀ e' ∈ entries, ¬ e'.Expired config now) ∧ e.OldestIn entries) := by
  rw [room, if_neg (by omega)]
  by_cases hfresh : ∀ e' ∈ entries, ¬ e'.Expired config now
  · have hkept : entries.filter (Entry.isFresh config now) = entries :=
      List.filter_eq_self.2 fun e' he' => Entry.isFresh_iff.2 (hfresh e' he')
    have hpos : entries ≠ [] := List.ne_nil_of_mem he
    have holdest := List.minOn?_eq_some_minOn (f := Entry.fetchedAt) hpos
    rw [hkept, evict_of_eq full holdest, ordered.nodup.of_map.mem_erase_iff,
      ordered.oldestIn_iff holdest he]
    constructor
    · rintro ⟨hne, -⟩ (hexpired | ⟨-, heq⟩)
      · exact hfresh e he hexpired
      · exact hne heq
    · intro hstays
      exact ⟨fun heq => hstays (.inr ⟨hfresh, heq⟩), he⟩
  · obtain ⟨e', hexpired⟩ := not_forall.1 hfresh
    obtain ⟨he', hexpired⟩ := Classical.not_imp.1 hexpired
    have hshort := full ▸ length_fresh_lt he' (not_not.1 hexpired)
    rw [evict_of_lt hshort, List.mem_filter, Entry.isFresh_iff]
    constructor
    · rintro ⟨-, hstays⟩ (hexpired | ⟨hnone, -⟩)
      · exact hstays hexpired
      · exact hfresh hnone
    · intro hstays
      exact ⟨he, fun hexpired => hstays (.inl hexpired)⟩

end Room

section Store

variable {c : Cache} {config : CacheConfig} {now : Nat} {artifact : Artifact} {id value : String}
  {e : Entry}

-- A key that is kept is stored in its own place.
theorem not_gone_store (hcapacity : 0 < config.capacity)
    (hpresent : ∃ e ∈ c.entries, e.key = (artifact, id)) (he : e ∈ c.entries) :
    ¬ e.Gone (c.store config now artifact id value) := by
  obtain ⟨e', he', hkey⟩ := hpresent
  intro hgone
  rw [Entry.Gone, store_present hcapacity he' hkey] at hgone
  by_cases hown : e.key = (artifact, id)
  · exact hgone _ (List.mem_append_right _ (List.mem_singleton_self _)) hown.symm
  · exact hgone e (List.mem_append_left _ (List.mem_filter.2 ⟨he, by simpa using hown⟩)) rfl

theorem gone_store_iff (hcapacity : 0 < config.capacity)
    (distinct : (c.entries.map Entry.key).Nodup)
    (habsent : ∀ e ∈ c.entries, e.key ≠ (artifact, id)) (he : e ∈ c.entries) :
    e.Gone (c.store config now artifact id value) ↔ e ∉ room config now c.entries := by
  rw [Entry.Gone, store_absent hcapacity habsent]
  constructor
  · intro hgone hroom
    exact hgone e (List.mem_append_left _ hroom) rfl
  · intro hnot e' he' hkey
    rcases List.mem_append.1 he' with hroom | hnew
    · have hold := (sublist_room _ _ _).subset hroom
      rw [List.inj_on_of_nodup_map distinct hold he hkey] at hroom
      exact hnot hroom
    · rw [List.mem_singleton.1 hnew] at hkey
      exact habsent e he hkey.symm

end Store

variable {ε : Type}

-- Entries stand in the order in which they were fetched, and none has been fetched after now.
structure State.Timed (s : Setting ε) (st : State ε) : Prop where
  ordered : Ordered st.cache.entries
  past : ∀ e ∈ st.cache.entries, e.fetchedAt ≤ s.clock st.history.moment

-- A key that is not kept is stored in a full cache.
def State.Crowds (s : Setting ε) (st : State ε) (request : Request) : Prop :=
  st.cache.size = s.config.capacity ∧
    ∃ artifact id value, request = .lookup artifact id ∧
      s.ledger st.history.moment artifact id = .ok value ∧
      ∀ e ∈ st.cache.entries, e.key ≠ (artifact, id)

-- Why a request costs the cache an entry: it clears the cache, or it needs room, and the entry has
-- expired or is the oldest one where none has.
def State.Displaces (s : Setting ε) (st : State ε) (request : Request) (e : Entry) : Prop :=
  request = .clear ∨ st.Crowds s request ∧
    (e.Expired s.config (s.clock (st.history.moment + 1)) ∨
      (∀ e' ∈ st.cache.entries, ¬ e'.Expired s.config (s.clock (st.history.moment + 1))) ∧
        e.OldestIn st.cache.entries)

section Turn

variable {s : Setting ε} {st after : State ε} {request : Request}
  {reply : Option (Except ε String)}

theorem State.Timed.turn (increasing : StrictMono s.clock) (h : st.Timed s) (sound : st.Sound s)
    (turn : Turn s st request reply after) : after.Timed s := by
  have hpass {m : Nat} (hm : st.history.moment < m) : ∀ e ∈ st.cache.entries,
      e.fetchedAt < s.clock m := fun e he => Nat.lt_of_le_of_lt (h.past e he) (increasing hm)
  cases turn with
  | cleared => exact ⟨.nil, nofun⟩
  | hit kept => exact ⟨h.ordered, fun e he => (hpass (Nat.lt_succ_self _) e he).le⟩
  | failed stale asked =>
    exact ⟨h.ordered, fun e he => (hpass (Nat.lt_add_of_pos_right Nat.two_pos) e he).le⟩
  | @stored artifact id value stale asked =>
    obtain hempty | ⟨kept, hentries, hsub, -, -⟩ := store_cases sound.bounded
      (s.clock (st.history.moment + 1)) artifact id value
    · constructor
      · rw [hempty]
        exact .nil
      · rw [hempty]
        exact fun e he => absurd he List.not_mem_nil
    constructor
    · rw [hentries, Ordered, List.pairwise_append]
      refine ⟨h.ordered.sublist hsub, List.pairwise_singleton _ _, ?_⟩
      intro e he new hnew
      rw [List.mem_singleton.1 hnew]
      exact hpass (Nat.lt_succ_self _) e (hsub.subset he)
    · intro e he
      rw [hentries, List.mem_append, List.mem_singleton] at he
      rcases he with hkept | rfl
      · exact (hpass (Nat.lt_add_of_pos_right Nat.two_pos) e (hsub.subset hkept)).le
      · exact (increasing (Nat.lt_succ_self _)).le

-- What is stored displaces what it must, and nothing else.
theorem State.Timed.gone_iff (h : st.Timed s) (sound : st.Sound s) {artifact : Artifact}
    {id value : String} (asked : s.ledger st.history.moment artifact id = .ok value) {e : Entry}
    (he : e ∈ st.cache.entries) :
    e.Gone (st.cache.store s.config (s.clock (st.history.moment + 1)) artifact id value) ↔
      st.Displaces s (.lookup artifact id) e := by
  have hcapacity : 0 < s.config.capacity :=
    Nat.lt_of_lt_of_le (List.length_pos_of_mem he) sound.bounded
  by_cases hpresent : ∃ e' ∈ st.cache.entries, e'.key = (artifact, id)
  · refine iff_of_false (not_gone_store hcapacity hpresent he) ?_
    obtain ⟨e', he', hkey⟩ := hpresent
    rintro (hclear | ⟨⟨-, artifact', id', value', hrequest, -, habsent⟩, -⟩)
    · cases hclear
    · cases hrequest
      exact habsent e' he' hkey
  · have habsent : ∀ e' ∈ st.cache.entries, e'.key ≠ (artifact, id) := by simpa using hpresent
    rw [gone_store_iff hcapacity sound.distinct habsent he]
    by_cases hfull : st.cache.entries.length = s.config.capacity
    · rw [mem_room_iff hfull h.ordered he, not_not]
      constructor
      · exact fun hloss => .inr ⟨⟨hfull, _, _, _, rfl, asked, habsent⟩, hloss⟩
      · rintro (hclear | ⟨-, hloss⟩)
        · cases hclear
        · exact hloss
    · have hspace : st.cache.entries.length < s.config.capacity :=
        Nat.lt_of_le_of_ne sound.bounded hfull
      rw [room, if_pos hspace]
      refine iff_of_false (not_not_intro he) ?_
      rintro (hclear | ⟨⟨hsize, -⟩, -⟩)
      · cases hclear
      · exact hfull hsize

theorem Turn.gone_iff (turn : Turn s st request reply after) (h : st.Timed s) (sound : st.Sound s)
    {e : Entry} (he : e ∈ st.cache.entries) : e.Gone after.cache ↔ st.Displaces s request e := by
  have hself (hsame : after.cache = st.cache) : ¬ e.Gone after.cache := fun hgone =>
    hgone e (hsame ▸ he) rfl
  cases turn with
  | cleared => exact iff_of_true nofun (.inl rfl)
  | @hit e' kept =>
    refine iff_of_false (hself rfl) ?_
    rintro (hclear | ⟨⟨-, artifact, id, value, hrequest, -, habsent⟩, -⟩)
    · cases hclear
    · cases hrequest
      exact habsent e' kept.1 rfl
  | failed stale asked =>
    refine iff_of_false (hself rfl) ?_
    rintro (hclear | ⟨⟨-, artifact, id, value, hrequest, hasked, -⟩, -⟩)
    · cases hclear
    · cases hrequest
      cases asked.symm.trans hasked
  | stored stale asked => exact h.gone_iff sound asked he

-- What stays is as it was, unless it has been fetched again.
theorem Turn.gone_or_same (turn : Turn s st request reply after) (sound : st.Sound s) {e : Entry}
    (he : e ∈ st.cache.entries) :
    e.Gone after.cache ∨ e ∈ after.cache.entries ∨ request = .lookup e.artifact e.id := by
  cases turn with
  | cleared => exact .inl nofun
  | hit kept => exact .inr (.inl he)
  | failed stale asked => exact .inr (.inl he)
  | @stored artifact id value stale asked =>
    have hcapacity : 0 < s.config.capacity :=
      Nat.lt_of_lt_of_le (List.length_pos_of_mem he) sound.bounded
    by_cases hpresent : ∃ e' ∈ st.cache.entries, e'.key = (artifact, id)
    · obtain ⟨e', he', hkey⟩ := hpresent
      right
      by_cases hown : e.key = (artifact, id)
      · cases hown
        exact .inr rfl
      · left
        rw [store_present hcapacity he' hkey]
        exact List.mem_append_left _ (List.mem_filter.2 ⟨he, by simpa using hown⟩)
    · have habsent : ∀ e' ∈ st.cache.entries, e'.key ≠ (artifact, id) := by simpa using hpresent
      by_cases hroom : e ∈ room s.config (s.clock (st.history.moment + 1)) st.cache.entries
      · right
        left
        rw [store_absent hcapacity habsent]
        exact List.mem_append_left _ hroom
      · exact .inl ((gone_store_iff hcapacity sound.distinct habsent he).2 hroom)

theorem not_displaces_present {e' : Entry} (he' : e' ∈ st.cache.entries)
    (hrequest : request = .lookup e'.artifact e'.id) (e : Entry) : ¬ st.Displaces s request e := by
  rintro (hclear | ⟨⟨-, artifact, id, value, hlookup, -, habsent⟩, -⟩)
  · cases hclear.symm.trans hrequest
  · cases hlookup.symm.trans hrequest
    exact habsent e' he' rfl

end Turn

namespace Setting

variable (s : Setting ε)

theorem run_timed (increasing : StrictMono s.clock) (requests : List Request) :
    (s.run requests).Timed s :=
  s.run_turns requests ⟨.nil, nofun⟩ fun sound h turn => h.turn increasing sound turn

end Setting

end Cache

end CredentialIssuance
