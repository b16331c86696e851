import CredentialIssuance.Json.Reader
import CredentialIssuance.Message.Basic

namespace CredentialIssuance

namespace Thread

def toJson (t : Thread) : Json :=
  .present [("thid", some (.str t.id)), ("pthid", t.parent.map .str)]

def ofJson? (j : Json) : Option Thread := do
  let ms ← j.members? ["thid", "pthid"]
  return {
    id := ← Json.required Json.str? ms "thid"
    parent := ← Json.optional Json.str? ms "pthid" }

end Thread

namespace AckStatus

def names : List (String × AckStatus) := [("OK", .ok), ("FAIL", .fail), ("PENDING", .pending)]

def toJson (s : AckStatus) : Json := .str (Json.nameOf names s)

-- In a message the name may also come with an empty object.
def ofJson? : Json → Option AckStatus
  | .obj [(name, .obj [])] => Json.lookup name names
  | j => Json.choice? names j

end AckStatus

namespace Notes

def members (n : Notes) : List (String × Option Json) :=
  [("comment", n.comment.map .str), ("goal_code", n.goalCode.map .str), ("goal", n.goal.map .str)]

def ofMembers? (ms : List (String × Json)) : Option Notes := do
  return {
    comment := ← Json.optional Json.str? ms "comment"
    goalCode := ← Json.optional Json.str? ms "goal_code"
    goal := ← Json.optional Json.str? ms "goal" }

end Notes

namespace Terms

def members (t : Terms) : List (String × Option Json) :=
  [("cred_def_id", t.definition.map .str), ("schema_id", t.schemaId.map .str),
    ("schema_issuer_did", t.schemaIssuer.map .str), ("schema_name", t.schemaName.map .str),
    ("schema_version", t.schemaVersion.map .str), ("issuer_did", t.issuer.map .str)]

def ofMembers? (ms : List (String × Json)) : Option Terms := do
  return {
    definition := ← Json.optional Json.str? ms "cred_def_id"
    schemaId := ← Json.optional Json.str? ms "schema_id"
    schemaIssuer := ← Json.optional Json.str? ms "schema_issuer_did"
    schemaName := ← Json.optional Json.str? ms "schema_name"
    schemaVersion := ← Json.optional Json.str? ms "schema_version"
    issuer := ← Json.optional Json.str? ms "issuer_did" }

end Terms

namespace Body

def formatList (formats : List Format) : String × Option Json :=
  ("formats", some (.ofList Format.toJson formats))

def attachmentList (name : String) (attachments : List Attachment) : String × Option Json :=
  (name, some (.ofList Attachment.toJson attachments))

-- Absent members are left out, lists are always written.
def members : Body → List (String × Option Json)
  | .propose1 comment preview terms =>
    ("comment", comment.map .str) :: ("credential_proposal", preview.map Preview.toJson) ::
      terms.members
  | .offer1 comment preview offers =>
    [("comment", comment.map .str), ("credential_preview", some preview.toJson),
      attachmentList "offers~attach" offers]
  | .request1 comment requests =>
    [("comment", comment.map .str), attachmentList "requests~attach" requests]
  | .issue1 comment credentials =>
    [("comment", comment.map .str), attachmentList "credentials~attach" credentials]
  | .propose2 notes preview formats filters =>
    notes.members ++ [("credential_preview", preview.map Preview.toJson), formatList formats,
      attachmentList "filters~attach" filters]
  | .offer2 notes replacement preview formats offers =>
    notes.members ++ [("replacement_id", replacement.map .str),
      ("credential_preview", preview.map Preview.toJson), formatList formats,
      attachmentList "offers~attach" offers]
  | .request2 notes formats requests =>
    notes.members ++ [formatList formats, attachmentList "requests~attach" requests]
  | .issue2 notes replacement formats credentials =>
    notes.members ++ [("replacement_id", replacement.map .str), formatList formats,
      attachmentList "credentials~attach" credentials]
  | .ack _ status => [("status", some status.toJson)]
  | .problemReport _ code text =>
    [("description", some (.present [("code", some (.str code)), ("en", text.map .str)]))]

def comment? (ms : List (String × Json)) : Option (Option String) :=
  Json.optional Json.str? ms "comment"

def attachments? : Json → Option (List Attachment) := Json.list? Attachment.ofJson?

def formats? (ms : List (String × Json)) : Option (List Format) :=
  Json.defaulted (Json.list? Format.ofJson?) [] ms "formats"

-- The body of a message of the family and kind. The second family may leave out its lists.
def ofMembers? (version : Version) (kind : Kind) (ms : List (String × Json)) : Option Body :=
  match version, kind with
  | .v1, .propose => do
    return .propose1 (← comment? ms) (← Json.optional Preview.ofJson? ms "credential_proposal")
      (← Terms.ofMembers? ms)
  | .v1, .offer => do
    return .offer1 (← comment? ms) (← Json.required Preview.ofJson? ms "credential_preview")
      (← Json.required attachments? ms "offers~attach")
  | .v1, .request => do
    return .request1 (← comment? ms) (← Json.required attachments? ms "requests~attach")
  | .v1, .issue => do
    return .issue1 (← comment? ms) (← Json.required attachments? ms "credentials~attach")
  | .v2, .propose => do
    return .propose2 (← Notes.ofMembers? ms) (← Json.optional Preview.ofJson? ms "credential_preview")
      (← formats? ms) (← Json.defaulted attachments? [] ms "filters~attach")
  | .v2, .offer => do
    return .offer2 (← Notes.ofMembers? ms) (← Json.optional Json.str? ms "replacement_id")
      (← Json.optional Preview.ofJson? ms "credential_preview") (← formats? ms)
      (← Json.defaulted attachments? [] ms "offers~attach")
  | .v2, .request => do
    return .request2 (← Notes.ofMembers? ms) (← formats? ms)
      (← Json.defaulted attachments? [] ms "requests~attach")
  | .v2, .issue => do
    return .issue2 (← Notes.ofMembers? ms) (← Json.optional Json.str? ms "replacement_id")
      (← formats? ms) (← Json.defaulted attachments? [] ms "credentials~attach")
  | version, .ack => do
    return .ack version (← Json.required AckStatus.ofJson? ms "status")
  | version, .problemReport => do
    let description ← Json.required (Json.members? ["code", "en"]) ms "description"
    return .problemReport version (← Json.required Json.str? description "code")
      (← Json.optional Json.str? description "en")

end Body

namespace Message

def toJson (m : Message) : Json :=
  .present (("@type", some (.str m.type)) :: ("@id", some (.str m.header.id)) ::
    ("~thread", m.header.thread.map Thread.toJson) :: m.body.members)

def ofMembers? (version : Version) (kind : Kind) (ms : List (String × Json)) : Option Message := do
  return {
    header := {
      id := ← Json.required Json.str? ms "@id"
      thread := ← Json.optional Thread.ofJson? ms "~thread" }
    body := ← Body.ofMembers? version kind ms }

def ofJson (j : Json) : Except Error Message :=
  match (j.get? "@type").bind Json.str? with
  | none => .error (.invalidMessage .noType)
  | some type =>
    match typeOf? type with
    | none => .error (.unroutable type)
    | some (version, kind) =>
      match (j.members? []).bind (ofMembers? version kind) with
      | none => .error (.invalidMessage (.malformed type))
      | some message => .ok message

def decode (text : String) : Except Error Message :=
  match Json.parse? text with
  | none => .error (.invalidMessage .notJson)
  | some j => ofJson j

end Message

end CredentialIssuance
