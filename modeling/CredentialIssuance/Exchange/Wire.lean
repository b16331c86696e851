import CredentialIssuance.Exchange.Basic

namespace CredentialIssuance

def Role.names : List (String × Role) := [("Holder", .holder), ("Issuer", .issuer)]

def State.wireNames : List (String × State) := State.all.map fun state => (state.wireName, state)

def Version.names : List (String × Version) := Version.all.map fun version => (version.name, version)

def AutoAccept.names : List (String × AutoAccept) :=
  AutoAccept.all.map fun policy => (policy.name, policy)

namespace CredentialBinding

def toJson (b : CredentialBinding) : Json :=
  .present [("recordType", some (.str b.recordType)), ("recordId", some (.str b.recordId))]

def ofJson? (j : Json) : Option CredentialBinding := do
  let ms ← j.members? ["recordType", "recordId"]
  return {
    recordType := ← Json.required Json.str? ms "recordType"
    recordId := ← Json.required Json.str? ms "recordId" }

end CredentialBinding

namespace Exchange

def memberNames : List String :=
  ["id", "connectionId", "threadId", "parentThreadId", "state", "role", "protocolVersion",
    "autoAccept", "credentialAttributes", "credentialDefinitionId", "requestMetadata",
    "credentials", "errorMessage", "createdAt", "updatedAt"]

def nonEmpty {α : Type} (write : α → Json) (items : List α) : Option Json :=
  if items.isEmpty then none else some (.ofList write items)

def timeJson (t : Timestamp) : Json := .str t.text

def time? (j : Json) : Option Timestamp := j.str?.bind Timestamp.ofText?

-- Absent members and empty lists are left out.
def toJson (e : Exchange) : Json :=
  .present [("id", some (.str e.id)), ("connectionId", some (.str e.connectionId)),
    ("threadId", some (.str e.threadId)), ("parentThreadId", e.parentThreadId.map .str),
    ("state", some (.str e.state.wireName)), ("role", some (.str e.role.name)),
    ("protocolVersion", some (.str e.version.name)),
    ("autoAccept", e.autoAccept.map fun policy => .str policy.name),
    ("credentialAttributes", nonEmpty Attribute.toJson e.attributes),
    ("credentialDefinitionId", e.definition.map .str),
    ("requestMetadata", e.requestMetadata.map .str),
    ("credentials", nonEmpty CredentialBinding.toJson e.credentials),
    ("errorMessage", e.errorMessage.map .str), ("createdAt", some (timeJson e.createdAt)),
    ("updatedAt", e.updatedAt.map timeJson)]

def ofJson? (j : Json) : Option Exchange := do
  let ms ← j.members? memberNames
  return {
    id := ← Json.required Json.str? ms "id"
    connectionId := ← Json.required Json.str? ms "connectionId"
    threadId := ← Json.required Json.str? ms "threadId"
    parentThreadId := ← Json.optional Json.str? ms "parentThreadId"
    state := ← Json.required (Json.choice? State.wireNames) ms "state"
    role := ← Json.required (Json.choice? Role.names) ms "role"
    version := ← Json.required (Json.choice? Version.names) ms "protocolVersion"
    autoAccept := ← Json.optional (Json.choice? AutoAccept.names) ms "autoAccept"
    attributes := ← Json.defaulted (Json.list? Attribute.ofJson?) [] ms "credentialAttributes"
    definition := ← Json.optional Json.str? ms "credentialDefinitionId"
    requestMetadata := ← Json.optional Json.str? ms "requestMetadata"
    credentials := ← Json.defaulted (Json.list? CredentialBinding.ofJson?) [] ms "credentials"
    errorMessage := ← Json.optional Json.str? ms "errorMessage"
    createdAt := ← Json.required time? ms "createdAt"
    updatedAt := ← Json.optional time? ms "updatedAt" }

end Exchange

end CredentialIssuance
