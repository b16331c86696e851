import CredentialIssuance.Event
import CredentialIssuance.Message.Basic
import CredentialIssuance.Table

namespace CredentialIssuance

-- Which side of an exchange a stored message came from.
inductive Party where
  | sender
  | receiver
  deriving DecidableEq, Repr

def Party.name : Party → String
  | .sender => "Sender"
  | .receiver => "Receiver"

structure StoredMessage where
  exchange : String
  type : String
  -- Absent for a message that was put into the store by hand.
  party : Option Party
  value : Json
  deriving DecidableEq

namespace StoredMessage

def key (m : StoredMessage) : String × String := (m.exchange, m.type)

end StoredMessage

-- What an agent remembers, the events oldest first.
structure Stores where
  records : Table Exchange.id
  messages : Table StoredMessage.key
  events : List Event
  deriving DecidableEq

namespace Stores

def empty : Stores := ⟨.empty, .empty, []⟩

def record? (s : Stores) (id : String) : Option Exchange := s.records.get? id

def onThread (s : Stores) (thread : String) : List Exchange :=
  s.records.entries.filter fun e => e.threadId = thread

def message? (s : Stores) (exchange type : String) : Option Json :=
  (s.messages.get? (exchange, type)).map StoredMessage.value

def put (s : Stores) (e : Exchange) : Stores := { s with records := s.records.put e }

def putMessage (s : Stores) (m : StoredMessage) : Stores :=
  { s with messages := s.messages.put m }

def dropMessage (s : Stores) (exchange type : String) : Stores :=
  { s with messages := s.messages.erase (exchange, type) }

def publish (s : Stores) (event : Event) : Stores := { s with events := s.events ++ [event] }

end Stores

end CredentialIssuance
