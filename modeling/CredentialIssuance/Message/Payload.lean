import CredentialIssuance.Error
import CredentialIssuance.Json.Reader

namespace CredentialIssuance

-- What is read in an offer's payload. The rest is for the anonymous-credentials machinery and is
-- passed on as it is.
structure OfferPayload where
  schema : String
  definition : String
  deriving DecidableEq, Repr

structure CredentialPayload where
  schema : String
  definition : String
  registry : Option String
  deriving DecidableEq, Repr

namespace OfferPayload

def ofDocument? (d : Document) : Option OfferPayload := do
  let ms ← d.members? ["schema_id", "cred_def_id"] false
  return {
    schema := ← Document.required Document.str? ms "schema_id"
    definition := ← Document.required Document.str? ms "cred_def_id" }

def ofText (text : String) : Except Error OfferPayload :=
  match (Document.parse? text).bind ofDocument? with
  | some payload => .ok payload
  | none => .error (.invalidMessage .malformedOffer)

end OfferPayload

namespace CredentialPayload

def ofDocument? (d : Document) : Option CredentialPayload := do
  let ms ← d.members? ["schema_id", "cred_def_id", "rev_reg_id"] false
  return {
    schema := ← Document.required Document.str? ms "schema_id"
    definition := ← Document.required Document.str? ms "cred_def_id"
    registry := ← Document.optional Document.str? ms "rev_reg_id" }

def ofText (text : String) : Except Error CredentialPayload :=
  match (Document.parse? text).bind ofDocument? with
  | some payload => .ok payload
  | none => .error (.invalidMessage .malformedCredential)

end CredentialPayload

end CredentialIssuance
