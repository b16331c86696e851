namespace CredentialIssuance

namespace Locks

-- An attempt that has not ended: it holds the lock of its table entry or waits for it.
structure Attempt where
  ticket : Nat
  thread : String
  lock : Nat
  holds : Bool
  deriving DecidableEq, Repr

end Locks

-- One lock for each thread that is in use.
structure Locks where
  -- Each thread with its lock.
  table : List (String × Nat)
  attempts : List Locks.Attempt
  nextLock : Nat
  nextTicket : Nat
  deriving DecidableEq, Repr

namespace Locks

def empty : Locks := ⟨[], [], 0, 0⟩

def size (l : Locks) : Nat := l.table.length

def inUse (l : Locks) (lock : Nat) : Bool := l.attempts.any fun a => a.lock = lock

def prune (l : Locks) : Locks := { l with table := l.table.filter fun entry => l.inUse entry.2 }

-- The lock of a thread, which is added to the table if it has none.
def entry (l : Locks) (thread : String) : Nat × Locks :=
  match l.table.find? fun entry => entry.1 = thread with
  | some entry => (entry.2, l)
  | none =>
    (l.nextLock, { l with table := l.table ++ [(thread, l.nextLock)], nextLock := l.nextLock + 1 })

-- A new attempt holds the lock at once if nobody else holds or awaits it.
def acquire (l : Locks) (thread : String) : Attempt × Locks :=
  let (lock, l) := l.prune.entry thread
  let attempt : Attempt := ⟨l.nextTicket, thread, lock, !l.inUse lock⟩
  (attempt, { l with attempts := l.attempts ++ [attempt], nextTicket := l.nextTicket + 1 })

-- Ends an attempt, whether it holds its lock or waits for it. The table stays as it is.
def finish (l : Locks) (ticket : Nat) : Locks :=
  { l with attempts := l.attempts.filter fun a => a.ticket ≠ ticket }

-- A waiting attempt obtains its lock once nobody holds it.
def grant (l : Locks) (ticket : Nat) : Locks :=
  { l with attempts := l.attempts.map fun a =>
      if a.ticket = ticket ∧ !(l.attempts.any fun b => b.lock = a.lock && b.holds) then
        { a with holds := true }
      else a }

end Locks

end CredentialIssuance
