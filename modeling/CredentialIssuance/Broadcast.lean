namespace CredentialIssuance

-- Only the latest items are kept. A subscriber that falls further behind is told how many it missed
-- and goes on with the oldest one kept.
structure Broadcast (α : Type) where
  capacity : Nat
  published : Nat
  -- The latest items, oldest first.
  kept : List α
  -- The number of items published before the next one each subscriber will see; none once the
  -- subscription has ended.
  subscribers : List (Option Nat)

namespace Broadcast

variable {α : Type}

-- Room for at least one item. The room is rounded up to a power of two.
def withCapacity (capacity : Nat) : Broadcast α := ⟨(max capacity 1).nextPowerOfTwo, 0, [], []⟩

-- A new subscriber, with its number, sees what is published from now on.
def subscribe (b : Broadcast α) : Nat × Broadcast α :=
  (b.subscribers.length, { b with subscribers := b.subscribers ++ [some b.published] })

def unsubscribe (b : Broadcast α) (subscriber : Nat) : Broadcast α :=
  { b with subscribers := b.subscribers.set subscriber none }

def publish (b : Broadcast α) (item : α) : Broadcast α :=
  let kept := b.kept ++ [item]
  { b with published := b.published + 1, kept := kept.drop (kept.length - b.capacity) }

inductive Reception (α : Type) where
  | item (item : α)
  | empty
  | lagged (missed : Nat)
  deriving Repr

-- What a subscriber receives without waiting, if there is such a subscriber.
def receive? (b : Broadcast α) (subscriber : Nat) : Option (Reception α × Broadcast α) :=
  match b.subscribers[subscriber]? with
  | some (some seen) =>
    let oldest := b.published - b.kept.length
    let moveTo (position : Nat) : Broadcast α :=
      { b with subscribers := b.subscribers.set subscriber (some position) }
    if seen < oldest then some (.lagged (oldest - seen), moveTo oldest)
    else
      match b.kept[seen - oldest]? with
      | some item => some (.item item, moveTo (seen + 1))
      | none => some (.empty, b)
  | _ => none

end Broadcast

end CredentialIssuance
