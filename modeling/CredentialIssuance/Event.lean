import CredentialIssuance.Exchange.Wire

namespace CredentialIssuance

-- Announces that a record was created or that it changed state, with a snapshot of it.
structure Event where
  exchange : Exchange
  -- Absent for a new record.
  previous : Option State
  deriving DecidableEq

namespace Event

def created (e : Exchange) : Event := ⟨e, none⟩

def transitioned (e : Exchange) (previous : State) : Event := ⟨e, some previous⟩

def state (event : Event) : State := event.exchange.state

def toJson (event : Event) : Json :=
  .present [("exchange", some event.exchange.toJson),
    ("previousState", event.previous.map fun state => .str state.wireName)]

def ofJson? (j : Json) : Option Event := do
  let ms ← j.members? ["exchange", "previousState"]
  return {
    exchange := ← Json.required Exchange.ofJson? ms "exchange"
    previous := ← Json.optional (Json.choice? State.wireNames) ms "previousState" }

end Event

end CredentialIssuance
