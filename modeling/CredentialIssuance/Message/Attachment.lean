import CredentialIssuance.Base64
import CredentialIssuance.Error
import CredentialIssuance.Json.Printer
import CredentialIssuance.Json.Structure

namespace CredentialIssuance

-- A named value of a credential.
structure Attribute where
  name : String
  mimeType : Option String
  value : String
  deriving DecidableEq

-- The attribute list inside a proposal or an offer.
structure Preview where
  type : String
  attributes : List Attribute
  deriving DecidableEq

-- Advertises the format of the attachment with that identifier.
structure Format where
  attachment : String
  format : String
  deriving DecidableEq

-- Data may be given as base64 text, as inline JSON, as both or not at all.
structure Attachment where
  id : String
  mimeType : Option String
  base64 : Option String
  json : Option Json
  deriving DecidableEq

namespace Attribute

def plain (name value : String) : Attribute := ⟨name, some "text/plain", value⟩

def toJson (a : Attribute) : Json :=
  .present [("name", some (.str a.name)), ("mime-type", a.mimeType.map .str),
    ("value", some (.str a.value))]

def ofJson? (j : Json) : Option Attribute := do
  let ms ← j.members? ["name", "mime-type", "value"]
  return {
    name := ← Json.required Json.str? ms "name"
    mimeType := ← Json.optional Json.str? ms "mime-type"
    value := ← Json.required Json.str? ms "value" }

end Attribute

namespace Preview

def toJson (p : Preview) : Json :=
  .present [("@type", some (.str p.type)),
    ("attributes", some (.ofList Attribute.toJson p.attributes))]

def ofJson? (j : Json) : Option Preview := do
  let ms ← j.members? ["@type", "attributes"]
  return {
    type := ← Json.required Json.str? ms "@type"
    attributes := ← Json.required (Json.list? Attribute.ofJson?) ms "attributes" }

end Preview

namespace Format

def toJson (f : Format) : Json :=
  .present [("attach_id", some (.str f.attachment)), ("format", some (.str f.format))]

def ofJson? (j : Json) : Option Format := do
  let ms ← j.members? ["attach_id", "format"]
  return {
    attachment := ← Json.required Json.str? ms "attach_id"
    format := ← Json.required Json.str? ms "format" }

-- Some entry must advertise the attachment.
def require (formats : List Format) (id : String) : Except Error Unit :=
  if formats.any fun f => f.attachment = id then .ok () else .error (.formatMissing id)

end Format

namespace Attachment

def toJson (a : Attachment) : Json :=
  .present [("@id", some (.str a.id)), ("mime-type", a.mimeType.map .str),
    ("data", some (.present [("base64", a.base64.map .str), ("json", a.json)]))]

-- An inline null is the same as no inline data.
def ofJson? (j : Json) : Option Attachment := do
  let ms ← j.members? ["@id", "mime-type", "data"]
  let id ← Json.required Json.str? ms "@id"
  let mimeType ← Json.optional Json.str? ms "mime-type"
  let data ← Json.required (Json.members? ["base64", "json"]) ms "data"
  return {
    id, mimeType
    base64 := ← Json.optional Json.str? data "base64"
    json := ← Json.optional some data "json" }

-- Carries a text as base64.
def ofText (id payload : String) : Attachment :=
  ⟨id, some "application/json", some (Base64.ofText payload), none⟩

-- The text a base64 form stands for.
def decode (encoded : String) : Except Error String :=
  match Base64.decode? encoded.toList with
  | none => .error (.invalidMessage .notBase64)
  | some bytes =>
    match String.fromUTF8? bytes.toByteArray with
    | none => .error (.invalidMessage .notUtf8)
    | some text => .ok text

-- Base64 comes before inline JSON, which is read as its compact text.
def payload (a : Attachment) : Except Error String :=
  match a.base64, a.json with
  | some encoded, _ => decode encoded
  | none, some json => .ok json.text
  | none, none => .error (.invalidMessage (.noData a.id))

-- The first attachment with that identifier.
def find (attachments : List Attachment) (id : String) : Except Error Attachment :=
  match attachments.find? fun a => a.id = id with
  | some a => .ok a
  | none => .error (.attachmentMissing id)

end Attachment

end CredentialIssuance
