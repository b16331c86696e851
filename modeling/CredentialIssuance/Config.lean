import CredentialIssuance.Error
import CredentialIssuance.Exchange.Wire
import CredentialIssuance.Json.Reader

namespace CredentialIssuance

structure CacheConfig where
  -- Seconds for which a ledger answer counts as fresh.
  ttl : Nat := 300
  -- The greatest number of ledger answers kept.
  capacity : Nat := 128
  deriving DecidableEq, Repr

structure Config where
  autoAccept : AutoAccept := .never
  eventCapacity : Nat := 64
  cache : CacheConfig := {}
  -- Stands for the connection of an offer that has none yet.
  connectionlessId : String := "connectionless-offer"
  deriving DecidableEq, Repr

namespace CacheConfig

def ofDocument? (d : Document) : Option CacheConfig := do
  let ms ← d.members? ["ttl_secs", "capacity"] true
  let default : CacheConfig := {}
  return {
    ttl := ← Document.defaulted Document.word? default.ttl ms "ttl_secs"
    capacity := ← Document.defaulted Document.word? default.capacity ms "capacity" }

def toJson (c : CacheConfig) : Json :=
  .object [("ttl_secs", .num (.int c.ttl)), ("capacity", .num (.int c.capacity))]

end CacheConfig

namespace Config

-- Every member has a default.
def ofDocument? (d : Document) : Option Config := do
  let ms ← d.members? ["auto_accept", "event_capacity", "cache", "connectionless_id"] true
  let default : Config := {}
  return {
    autoAccept :=
      ← Document.defaulted (Document.choice? AutoAccept.names) default.autoAccept ms "auto_accept"
    eventCapacity := ← Document.defaulted Document.word? default.eventCapacity ms "event_capacity"
    cache := ← Document.defaulted CacheConfig.ofDocument? default.cache ms "cache"
    connectionlessId :=
      ← Document.defaulted Document.str? default.connectionlessId ms "connectionless_id" }

def ofText (text : String) : Except Error Config :=
  match (Document.parse? text).bind ofDocument? with
  | some config => .ok config
  | none => .error (.invalidMessage .configuration)

def toJson (c : Config) : Json :=
  .object [("auto_accept", .str c.autoAccept.name),
    ("event_capacity", .num (.int c.eventCapacity)), ("cache", c.cache.toJson),
    ("connectionless_id", .str c.connectionlessId)]

end Config

end CredentialIssuance
