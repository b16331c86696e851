import CredentialIssuance.Locks
import Mathlib.Data.List.Nodup
import Mathlib.Logic.Relation

namespace CredentialIssuance

namespace Locks

def keys (l : Locks) : List String := l.table.map Prod.fst

-- Someone holds the lock of the thread or waits for it.
def Busy (l : Locks) (thread : String) : Prop := ∃ a ∈ l.attempts, a.thread = thread

instance (l : Locks) (thread : String) : Decidable (l.Busy thread) :=
  inferInstanceAs (Decidable (∃ a ∈ l.attempts, a.thread = thread))

-- What those can do who have come. A lock that nobody holds goes to one that waits for it. Which
-- one is left open, so that the runs of a fair lock are among those considered.
inductive Move (l : Locks) : Locks → Prop
  | granted {a : Attempt} (there : a ∈ l.attempts) (waits : a.holds = false)
      (free : ∀ b ∈ l.attempts, b.lock = a.lock → b.holds = false) : Move l (l.grant a.ticket)
  | givenUp {a : Attempt} (there : a ∈ l.attempts) (waits : a.holds = false) :
      Move l (l.finish a.ticket)
  | released {a : Attempt} (there : a ∈ l.attempts) (holds : a.holds = true) :
      Move l (l.finish a.ticket)

inductive Step (l : Locks) : Locks → Prop
  | attempt (thread : String) : Step l (l.acquire thread).2
  | move {after : Locks} (move : Move l after) : Step l after

-- A step that is taken while the thread is busy.
def Attended (thread : String) (l after : Locks) : Prop := l.Busy thread ∧ Step l after

-- Each thread has one entry with a lock of its own. Whoever has come refers to the entry of its
-- thread, and at most one of those who refer to it holds it.
structure Sound (l : Locks) : Prop where
  keys : l.keys.Nodup
  locks : (l.table.map Prod.snd).Nodup
  fresh : ∀ entry ∈ l.table, entry.2 < l.nextLock
  backed : ∀ a ∈ l.attempts, (a.thread, a.lock) ∈ l.table
  tickets : (l.attempts.map Attempt.ticket).Nodup
  past : ∀ a ∈ l.attempts, a.ticket < l.nextTicket
  single : ∀ a ∈ l.attempts, ∀ b ∈ l.attempts, a.lock = b.lock → a.holds → b.holds → a = b

theorem sound_empty : empty.Sound :=
  ⟨.nil, .nil, nofun, nofun, .nil, nofun, nofun⟩

variable {l after : Locks} {thread : String} {a b : Attempt} {entry : String × Nat}

theorem inUse_iff {lock : Nat} : l.inUse lock = true ↔ ∃ a ∈ l.attempts, a.lock = lock := by
  simp [inUse]

namespace Sound

theorem entry_of_lock (h : l.Sound) (ha : a ∈ l.attempts) (hentry : entry ∈ l.table)
    (hlock : a.lock = entry.2) : entry = (a.thread, a.lock) :=
  List.inj_on_of_nodup_map h.locks hentry (h.backed a ha) hlock.symm

theorem entry_of_thread (h : l.Sound) (ha : a ∈ l.attempts) (hentry : entry ∈ l.table)
    (hthread : a.thread = entry.1) : entry = (a.thread, a.lock) :=
  List.inj_on_of_nodup_map h.keys hentry (h.backed a ha) hthread.symm

theorem lock_eq_iff (h : l.Sound) (ha : a ∈ l.attempts) (hb : b ∈ l.attempts) :
    a.lock = b.lock ↔ a.thread = b.thread := by
  constructor
  · intro hlock
    exact (congrArg Prod.fst (h.entry_of_lock ha (h.backed b hb) hlock)).symm
  · intro hthread
    exact (congrArg Prod.snd (h.entry_of_thread ha (h.backed b hb) hthread)).symm

-- Pruning keeps the entries of those who have come, and no others.
theorem mem_prune_iff (h : l.Sound) :
    entry ∈ l.prune.table ↔ ∃ a ∈ l.attempts, entry = (a.thread, a.lock) := by
  rw [prune, List.mem_filter, inUse_iff]
  constructor
  · rintro ⟨hentry, a, ha, hlock⟩
    exact ⟨a, ha, h.entry_of_lock ha hentry hlock⟩
  · rintro ⟨a, ha, rfl⟩
    exact ⟨h.backed a ha, a, ha, rfl⟩

theorem mem_keys_prune_iff (h : l.Sound) : thread ∈ l.prune.keys ↔ l.Busy thread := by
  rw [Locks.keys, List.mem_map]
  constructor
  · rintro ⟨entry, hentry, rfl⟩
    obtain ⟨a, ha, rfl⟩ := h.mem_prune_iff.1 hentry
    exact ⟨a, ha, rfl⟩
  · rintro ⟨a, ha, rfl⟩
    exact ⟨(a.thread, a.lock), h.mem_prune_iff.2 ⟨a, ha, rfl⟩, rfl⟩

theorem prune (h : l.Sound) : l.prune.Sound where
  keys := h.keys.sublist (List.filter_sublist.map _)
  locks := h.locks.sublist (List.filter_sublist.map _)
  fresh := fun entry hentry => h.fresh entry (List.mem_of_mem_filter hentry)
  backed := fun a ha => h.mem_prune_iff.2 ⟨a, ha, rfl⟩
  tickets := h.tickets
  past := h.past
  single := h.single

end Sound

-- A table to which an attempt has been added.
def enter (l : Locks) (a : Attempt) : Locks :=
  { l with attempts := l.attempts ++ [a], nextTicket := l.nextTicket + 1 }

-- A table to which an entry with a new lock has been added.
def extend (l : Locks) (thread : String) : Locks :=
  { l with table := l.table ++ [(thread, l.nextLock)], nextLock := l.nextLock + 1 }

-- What comes of an attempt: the thread is busy, and it waits for the lock that is in use, or it
-- adds an entry and holds its lock.
inductive Acquired (l : Locks) (thread : String) : Attempt × Locks → Prop
  | waiting {lock : Nat} (busy : l.Busy thread) (entry : (thread, lock) ∈ l.prune.table) :
      Acquired l thread (⟨l.nextTicket, thread, lock, false⟩,
        l.prune.enter ⟨l.nextTicket, thread, lock, false⟩)
  | holding (idle : ¬ l.Busy thread) :
      Acquired l thread (⟨l.nextTicket, thread, l.nextLock, true⟩,
        (l.prune.extend thread).enter ⟨l.nextTicket, thread, l.nextLock, true⟩)

namespace Sound

-- A lock that is still to be given out is not in use.
theorem not_inUse_nextLock (h : l.Sound) : l.inUse l.nextLock = false := by
  rw [← Bool.not_eq_true, inUse_iff]
  rintro ⟨a, ha, hlock⟩
  exact Nat.ne_of_lt (h.fresh _ (h.backed a ha)) hlock

theorem acquired (h : l.Sound) (thread : String) : l.Acquired thread (l.acquire thread) := by
  rw [acquire, Locks.entry]
  cases hfind : l.prune.table.find? fun entry => entry.1 = thread with
  | some entry =>
    have hmem := List.mem_of_find?_eq_some hfind
    have hthread : entry.1 = thread := by simpa using List.find?_some hfind
    obtain ⟨a, ha, rfl⟩ := h.mem_prune_iff.1 hmem
    subst hthread
    have hused : l.prune.inUse a.lock = true := inUse_iff.2 ⟨a, ha, rfl⟩
    simp only [hused, Bool.not_true]
    exact .waiting ⟨a, ha, rfl⟩ hmem
  | none =>
    have hidle : ¬ l.Busy thread := by
      rw [← h.mem_keys_prune_iff, Locks.keys, List.mem_map]
      rintro ⟨entry, hentry, hthread⟩
      exact List.find?_eq_none.1 hfind entry hentry (by simpa using hthread)
    have hunused : (l.prune.extend thread).inUse l.prune.nextLock = false := h.not_inUse_nextLock
    rw [Locks.extend] at hunused
    simp only [hunused, Bool.not_false]
    exact .holding hidle

theorem extend (h : l.Sound) (idle : thread ∉ l.keys) : (l.extend thread).Sound where
  keys := by
    rw [Locks.keys, Locks.extend, List.map_append]
    exact h.keys.append (List.nodup_singleton _) (by simpa using idle)
  locks := by
    rw [Locks.extend, List.map_append]
    refine h.locks.append (List.nodup_singleton _) ?_
    simp only [List.map_cons, List.map_nil, List.disjoint_singleton, List.mem_map, not_exists]
    rintro entry ⟨hentry, hlock⟩
    exact Nat.ne_of_lt (h.fresh entry hentry) hlock
  fresh := by
    intro entry hentry
    rcases List.mem_append.1 hentry with hold | hnew
    · exact Nat.lt_succ_of_lt (h.fresh entry hold)
    · rw [List.mem_singleton.1 hnew]
      exact Nat.lt_succ_self _
  backed := fun a ha => List.mem_append_left _ (h.backed a ha)
  tickets := h.tickets
  past := h.past
  single := h.single

-- One more attempt must refer to an entry, and may hold only what nobody else refers to.
theorem enter (h : l.Sound) (hticket : a.ticket = l.nextTicket)
    (hentry : (a.thread, a.lock) ∈ l.table)
    (hholds : a.holds → ∀ b ∈ l.attempts, b.lock ≠ a.lock) : (l.enter a).Sound where
  keys := h.keys
  locks := h.locks
  fresh := h.fresh
  backed := by
    intro b hb
    rcases List.mem_append.1 hb with hold | hnew
    · exact h.backed b hold
    · rwa [List.mem_singleton.1 hnew]
  tickets := by
    rw [Locks.enter, List.map_append]
    refine h.tickets.append (List.nodup_singleton _) ?_
    simp only [List.map_cons, List.map_nil, List.disjoint_singleton, List.mem_map, not_exists]
    rintro b ⟨hb, hsame⟩
    exact Nat.ne_of_lt (h.past b hb) (hsame.trans hticket)
  past := by
    intro b hb
    rcases List.mem_append.1 hb with hold | hnew
    · exact Nat.lt_succ_of_lt (h.past b hold)
    · rw [List.mem_singleton.1 hnew, hticket]
      exact Nat.lt_succ_self _
  single := by
    intro b hb c hc hlock hbholds hcholds
    rcases List.mem_append.1 hb with hbold | hbnew <;>
      rcases List.mem_append.1 hc with hcold | hcnew
    · exact h.single b hbold c hcold hlock hbholds hcholds
    · cases List.mem_singleton.1 hcnew
      exact absurd hlock (hholds hcholds b hbold)
    · cases List.mem_singleton.1 hbnew
      exact absurd hlock.symm (hholds hbholds c hcold)
    · rw [List.mem_singleton.1 hbnew, List.mem_singleton.1 hcnew]

theorem acquire (h : l.Sound) (thread : String) : (l.acquire thread).2.Sound := by
  have hacquired := h.acquired thread
  generalize l.acquire thread = result at hacquired
  cases hacquired with
  | waiting busy entry => exact h.prune.enter rfl entry nofun
  | holding idle =>
    refine (h.prune.extend (mt h.mem_keys_prune_iff.1 idle)).enter rfl ?_ ?_
    · exact List.mem_append_right _ (List.mem_singleton_self _)
    · exact fun _ b hb => Nat.ne_of_lt (h.fresh _ (h.backed b hb))

theorem finish (h : l.Sound) (ticket : Nat) : (l.finish ticket).Sound where
  keys := h.keys
  locks := h.locks
  fresh := h.fresh
  backed := fun a ha => h.backed a (List.mem_of_mem_filter ha)
  tickets := h.tickets.sublist (List.filter_sublist.map _)
  past := fun a ha => h.past a (List.mem_of_mem_filter ha)
  single := fun a ha b hb =>
    h.single a (List.mem_of_mem_filter ha) b (List.mem_of_mem_filter hb)

end Sound

-- A grant changes one attempt at most, and only to let it hold what nobody holds.
theorem mem_grant {ticket : Nat} (ha : a ∈ (l.grant ticket).attempts) :
    a ∈ l.attempts ∨ ∃ b ∈ l.attempts, a = { b with holds := true } ∧ b.ticket = ticket ∧
      ∀ c ∈ l.attempts, c.lock = b.lock → c.holds = false := by
  obtain ⟨b, hb, rfl⟩ := List.mem_map.1 ha
  split
  · next hgranted =>
    obtain ⟨hticket, hfree⟩ := hgranted
    exact .inr ⟨b, hb, rfl, hticket, by simpa using hfree⟩
  · exact .inl hb

theorem grant_tickets (l : Locks) (ticket : Nat) :
    (l.grant ticket).attempts.map Attempt.ticket = l.attempts.map Attempt.ticket := by
  rw [grant, List.map_map]
  refine List.map_congr_left fun a _ => ?_
  simp only [Function.comp_apply]
  split <;> rfl

namespace Sound

theorem grant (h : l.Sound) (ticket : Nat) : (l.grant ticket).Sound where
  keys := h.keys
  locks := h.locks
  fresh := h.fresh
  backed := by
    intro a ha
    obtain hold | ⟨b, hb, rfl, -⟩ := mem_grant ha
    · exact h.backed a hold
    · exact h.backed b hb
  tickets := by
    rw [grant_tickets]
    exact h.tickets
  past := by
    intro a ha
    obtain hold | ⟨b, hb, rfl, -⟩ := mem_grant ha
    · exact h.past a hold
    · exact h.past b hb
  single := by
    intro a ha b hb hlock haholds hbholds
    obtain haold | ⟨a, hain, rfl, haticket, hafree⟩ := mem_grant ha <;>
      obtain hbold | ⟨b, hbin, rfl, hbticket, hbfree⟩ := mem_grant hb
    · exact h.single a haold b hbold hlock haholds hbholds
    · cases haholds.symm.trans (hbfree a haold hlock)
    · cases hbholds.symm.trans (hafree b hbold hlock.symm)
    · rw [List.inj_on_of_nodup_map h.tickets hain hbin (haticket.trans hbticket.symm)]

end Sound

theorem mem_grant_self (ha : a ∈ l.attempts)
    (free : ∀ b ∈ l.attempts, b.lock = a.lock → b.holds = false) :
    { a with holds := true } ∈ (l.grant a.ticket).attempts := by
  refine List.mem_map.2 ⟨a, ha, if_pos ⟨rfl, ?_⟩⟩
  simpa using free

-- A ticket is that of one attempt, which is the one that ends.
theorem Sound.mem_finish_iff (h : l.Sound) (ha : a ∈ l.attempts) :
    b ∈ (l.finish a.ticket).attempts ↔ b ∈ l.attempts ∧ b ≠ a := by
  rw [Locks.finish, List.mem_filter, decide_eq_true_iff]
  refine and_congr_right fun hb => not_congr ⟨fun hticket => ?_, congrArg Attempt.ticket⟩
  exact List.inj_on_of_nodup_map h.tickets hb ha hticket

theorem Move.table (move : Move l after) : after.table = l.table := by
  cases move <;> rfl

theorem Move.sound (move : Move l after) (h : l.Sound) : after.Sound := by
  cases move with
  | granted there waits free => exact h.grant _
  | givenUp there waits => exact h.finish _
  | released there holds => exact h.finish _

theorem Step.sound (step : Step l after) (h : l.Sound) : after.Sound := by
  cases step with
  | attempt thread => exact h.acquire thread
  | move move => exact move.sound h

theorem run_sound (reached : Relation.ReflTransGen Step empty l) : l.Sound := by
  induction reached with
  | refl => exact sound_empty
  | tail _ step ih => exact step.sound ih

theorem moves_table (moves : Relation.ReflTransGen Move l after) : after.table = l.table := by
  induction moves with
  | refl => rfl
  | tail _ move ih => exact move.table.trans ih

namespace Sound

theorem mem_keys_acquire_iff (h : l.Sound) (thread key : String) :
    key ∈ (l.acquire thread).2.keys ↔ key = thread ∨ l.Busy key := by
  have hacquired := h.acquired thread
  generalize l.acquire thread = result at hacquired
  rw [← h.mem_keys_prune_iff]
  cases hacquired with
  | waiting busy entry =>
    refine ⟨.inr, ?_⟩
    rintro (rfl | hkey)
    · exact h.mem_keys_prune_iff.2 busy
    · exact hkey
  | holding idle => simp [Locks.keys, Locks.enter, Locks.extend, or_comm]

-- The attempt comes last, and holds its lock unless it has found others there.
theorem acquire_attempt (h : l.Sound) (thread : String) :
    (l.acquire thread).1.thread = thread ∧
    (l.acquire thread).2.attempts = l.attempts ++ [(l.acquire thread).1] ∧
    ((l.acquire thread).1.holds = true ↔ ¬ l.Busy thread) := by
  have hacquired := h.acquired thread
  generalize l.acquire thread = result at hacquired
  cases hacquired with
  | waiting busy entry => exact ⟨rfl, rfl, iff_of_false nofun (not_not_intro busy)⟩
  | holding idle => exact ⟨rfl, rfl, iff_of_true rfl idle⟩

-- Whatever the next step, nobody loses the entry.
theorem kept (h : l.Sound) (ha : a ∈ l.attempts) (step : Step l after) :
    (a.thread, a.lock) ∈ after.table := by
  cases step with
  | attempt thread =>
    have hacquired := h.acquired thread
    have hprune : (a.thread, a.lock) ∈ l.prune.table := h.mem_prune_iff.2 ⟨a, ha, rfl⟩
    generalize l.acquire thread = result at hacquired
    cases hacquired with
    | waiting busy entry => exact hprune
    | holding idle => exact List.mem_append_left _ hprune
  | move move =>
    rw [move.table]
    exact h.backed a ha

-- The lock of a thread stays the same while the thread is busy, whoever comes and goes.
theorem attended (h : l.Sound) (ha : a ∈ l.attempts)
    (run : Relation.ReflTransGen (Attended a.thread) l after) :
    after.Sound ∧ (a.thread, a.lock) ∈ after.table := by
  induction run with
  | refl => exact ⟨h, h.backed a ha⟩
  | @tail middle last _ step ih =>
    obtain ⟨hmiddle, hentry⟩ := ih
    obtain ⟨⟨b, hb, hthread⟩, step⟩ := step
    refine ⟨step.sound hmiddle, ?_⟩
    rw [hmiddle.entry_of_thread hb hentry hthread]
    exact hmiddle.kept hb step

end Sound

-- Whatever attempts are made, granted, given up and released in whatever order, at most one holds
-- the lock of a thread. All who hold or await it refer to the one entry of the thread, which stays
-- while there are any. Whether an attempt succeeds at once depends on its own thread alone. It
-- leaves the entries of the busy threads and its own. A waiting attempt can have its lock once
-- nobody holds it, and whoever leaves takes nobody along; neither changes the table.
theorem mutual_exclusion (reached : Relation.ReflTransGen Step empty l) :
    (∀ a ∈ l.attempts, ∀ b ∈ l.attempts, a.thread = b.thread → a.holds → b.holds → a = b) ∧
    (∀ a ∈ l.attempts, ∀ lock, (a.thread, lock) ∈ l.table ↔ lock = a.lock) ∧
    (∀ a ∈ l.attempts, ∀ b ∈ l.attempts, a.lock = b.lock ↔ a.thread = b.thread) ∧
    (∀ a ∈ l.attempts, ∀ after, Relation.ReflTransGen (Attended a.thread) l after →
      (a.thread, a.lock) ∈ after.table ∧
        ∀ b ∈ after.attempts, b.thread = a.thread → b.lock = a.lock) ∧
    (∀ thread, (l.acquire thread).1.thread = thread ∧
      (l.acquire thread).2.attempts = l.attempts ++ [(l.acquire thread).1] ∧
      ((l.acquire thread).1.holds = true ↔ ¬ l.Busy thread)) ∧
    (∀ thread, (l.acquire thread).2.keys.Nodup ∧
      ∀ key, key ∈ (l.acquire thread).2.keys ↔ key = thread ∨ l.Busy key) ∧
    (∀ a ∈ l.attempts, (∀ b ∈ l.attempts, b.thread = a.thread → b.holds = false) →
      { a with holds := true } ∈ (l.grant a.ticket).attempts) ∧
    (∀ a ∈ l.attempts, ∀ b, b ∈ (l.finish a.ticket).attempts ↔ b ∈ l.attempts ∧ b ≠ a) ∧
    ∀ after, Relation.ReflTransGen Move l after → after.table = l.table := by
  have h := run_sound reached
  refine ⟨?guards, ?entries, fun a ha b hb => h.lock_eq_iff ha hb, ?stays, h.acquire_attempt,
    fun thread => ⟨(h.acquire thread).keys, h.mem_keys_acquire_iff thread⟩,
    fun a ha free => ?grants, fun a ha b => h.mem_finish_iff ha, fun after => moves_table⟩
  case guards =>
    intro a ha b hb hthread
    exact h.single a ha b hb ((h.lock_eq_iff ha hb).2 hthread)
  case entries =>
    intro a ha lock
    constructor
    · intro hentry
      exact congrArg Prod.snd (h.entry_of_thread ha hentry rfl)
    · rintro rfl
      exact h.backed a ha
  case stays =>
    intro a ha after run
    obtain ⟨hafter, hentry⟩ := h.attended ha run
    refine ⟨hentry, fun b hb hthread => ?_⟩
    exact (congrArg Prod.snd (hafter.entry_of_thread hb hentry hthread)).symm
  case grants =>
    exact mem_grant_self ha fun b hb hlock => free b hb ((h.lock_eq_iff hb ha).1 hlock)

-- Both guards are gone, and one attempt still waits for the first. Its entry is kept, so that one
-- more attempt waits as well, while the entry of the other thread is dropped.
theorem mutual_exclusion_waiting :
    let l : Locks := ⟨[("t", 0), ("u", 1)], [⟨2, "t", 0, false⟩], 2, 3⟩
    Relation.ReflTransGen Step empty l ∧ ¬ (l.acquire "t").1.holds = true ∧
      (l.acquire "u").1.holds = true ∧ "t" ∈ (l.acquire "v").2.keys ∧
      "u" ∉ (l.acquire "v").2.keys := by
  intro l
  have hheld : Relation.ReflTransGen Step empty
      ⟨[("t", 0), ("u", 1)], [⟨0, "t", 0, true⟩, ⟨1, "u", 1, true⟩, ⟨2, "t", 0, false⟩], 2, 3⟩ :=
    .tail (.tail (.tail .refl (.attempt "t")) (.attempt "u")) (.attempt "t")
  have hreached : Relation.ReflTransGen Step empty l :=
    .tail (.tail hheld (.move (.released (a := ⟨1, "u", 1, true⟩) (by decide) rfl)))
      (.move (.released (a := ⟨0, "t", 0, true⟩) (by decide) rfl))
  obtain ⟨-, -, -, -, hholds, hkeys, -⟩ := mutual_exclusion hreached
  refine ⟨hreached, mt (hholds "t").2.2.1 (by decide), (hholds "u").2.2.2 (by decide),
    ((hkeys "v").2 "t").2 (by decide), mt ((hkeys "v").2 "u").1 (by decide)⟩

end Locks

end CredentialIssuance
