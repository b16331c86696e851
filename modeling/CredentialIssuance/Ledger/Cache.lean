import CredentialIssuance.Config

namespace CredentialIssuance

inductive Artifact where
  | credentialDefinition
  | schema
  | revocationRegistry
  deriving DecidableEq, Repr

namespace Cache

structure Entry where
  artifact : Artifact
  id : String
  value : String
  fetchedAt : Nat
  deriving DecidableEq, Repr

-- Times are in nanoseconds.
def Entry.isFresh (config : CacheConfig) (now : Nat) (e : Entry) : Bool :=
  now - e.fetchedAt < config.ttl * Nat.pow 10 9

def Entry.isFor (artifact : Artifact) (id : String) (e : Entry) : Bool :=
  e.artifact = artifact && e.id = id

end Cache

-- Entries stand in the order in which they were fetched, so the first one is the oldest.
structure Cache where
  entries : List Cache.Entry
  deriving DecidableEq, Repr

namespace Cache

def empty : Cache := ⟨[]⟩

def size (c : Cache) : Nat := c.entries.length

def find? (c : Cache) (artifact : Artifact) (id : String) : Option Entry :=
  c.entries.find? (Entry.isFor artifact id)

-- The kept answer, unless it has expired.
def fresh? (c : Cache) (config : CacheConfig) (now : Nat) (artifact : Artifact) (id : String) :
    Option String :=
  match c.find? artifact id with
  | some e => if e.isFresh config now then some e.value else none
  | none => none

-- One pass of the loop that makes room: as long as the cache is full, the entry fetched first goes.
def evict? (capacity : Nat) (entries : List Entry) : Option (List Entry) :=
  if entries.length < capacity then none
  else (entries.minOn? Entry.fetchedAt).map entries.erase

theorem evict?_eq_some_iff {capacity : Nat} {entries rest : List Entry} :
    evict? capacity entries = some rest ↔
      capacity ≤ entries.length ∧
        ∃ oldest, entries.minOn? Entry.fetchedAt = some oldest ∧ entries.erase oldest = rest := by
  unfold evict?
  split
  · next hroom => simp [Nat.not_le.2 hroom]
  · next hfull => simp [Nat.not_lt.1 hfull]

-- Every pass leaves one entry less, so the loop ends.
theorem length_evict? {capacity : Nat} {entries rest : List Entry}
    (h : evict? capacity entries = some rest) : rest.length + 1 = entries.length := by
  obtain ⟨-, oldest, holdest, rfl⟩ := evict?_eq_some_iff.1 h
  have hmem : oldest ∈ entries := List.minOn?_mem holdest
  have hpos := List.length_pos_of_mem hmem
  rw [List.length_erase_of_mem hmem]
  omega

def evict (capacity : Nat) (entries : List Entry) : List Entry :=
  match hpass : evict? capacity entries with
  | none => entries
  | some rest =>
    have : rest.length < entries.length := Nat.lt_of_succ_le (Nat.le_of_eq (length_evict? hpass))
    evict capacity rest
termination_by entries.length

-- Makes room for one entry: a full cache loses its expired entries, and then, as long as it is
-- still full, its oldest one.
def room (config : CacheConfig) (now : Nat) (entries : List Entry) : List Entry :=
  if entries.length < config.capacity then entries
  else evict config.capacity (entries.filter (Entry.isFresh config now))

-- Keeps an answer fetched now. An answer for the same artifact gives way to it and nothing else
-- does.
def store (c : Cache) (config : CacheConfig) (now : Nat) (artifact : Artifact) (id value : String) :
    Cache :=
  if config.capacity = 0 then c
  else
    let kept :=
      match c.find? artifact id with
      | some _ => c.entries.filter fun e => !e.isFor artifact id
      | none => room config now c.entries
    ⟨kept ++ [⟨artifact, id, value, now⟩]⟩

theorem sublist_evict (capacity : Nat) (entries : List Entry) :
    (evict capacity entries).Sublist entries := by
  fun_induction evict capacity entries with
  | case1 entries => exact List.Sublist.refl _
  | case2 entries rest hpass hless ih =>
    obtain ⟨-, oldest, -, rfl⟩ := evict?_eq_some_iff.1 hpass
    exact ih.trans List.erase_sublist

theorem sublist_room (config : CacheConfig) (now : Nat) (entries : List Entry) :
    (room config now entries).Sublist entries := by
  unfold room
  split
  · exact List.Sublist.refl _
  · exact (sublist_evict _ _).trans List.filter_sublist

-- Nothing else comes into the cache.
theorem mem_store {c : Cache} {config : CacheConfig} {now : Nat} {artifact : Artifact}
    {id value : String} {e : Entry} (h : e ∈ (c.store config now artifact id value).entries) :
    e ∈ c.entries ∨ e = ⟨artifact, id, value, now⟩ := by
  unfold store at h
  split at h
  · exact .inl h
  · rcases List.mem_append.1 h with hkept | hnew
    · left
      split at hkept
      · exact (List.mem_filter.1 hkept).1
      · exact (sublist_room config now c.entries).subset hkept
    · exact .inr (List.mem_singleton.1 hnew)

-- A look-up through the cache. The ledger is asked only if no fresh answer is kept, and then
-- once; a failure is passed on and not kept. Asking depends on a state and may change it, and the
-- clock is read in that state.
def lookup {σ ε : Type} (c : Cache) (config : CacheConfig) (clock : σ → Nat)
    (ask : Artifact → String → σ → Except ε String × σ) (artifact : Artifact) (id : String) (s : σ) :
    Except ε String × Cache × σ :=
  match c.fresh? config (clock s) artifact id with
  | some value => (.ok value, c, s)
  | none =>
    match ask artifact id s with
    | (.ok value, s) => (.ok value, c.store config (clock s) artifact id value, s)
    | (.error e, s) => (.error e, c, s)

end Cache

end CredentialIssuance
