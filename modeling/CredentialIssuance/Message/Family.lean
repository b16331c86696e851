import CredentialIssuance.Message.Wire

namespace CredentialIssuance

structure Proposal where
  notes : Notes
  attributes : List Attribute
  terms : Terms
  deriving DecidableEq

structure OfferDetails where
  notes : Notes
  replacement : Option String
  attributes : List Attribute
  deriving DecidableEq

def OfferDetails.blank : OfferDetails := ⟨⟨none, none, none⟩, none, []⟩

namespace Terms

-- The named terms as a compact JSON object, if there are any.
def filter? (t : Terms) : Option String :=
  if t.members.all fun member => member.2.isNone then none else some (Json.present t.members).text

end Terms

namespace Message

-- The attachments of an offer, a request or a credential of the first family.
def attachments1 (m : Message) : List Attachment :=
  match m.body with
  | .offer1 _ _ attachments | .request1 _ attachments | .issue1 _ attachments => attachments
  | _ => []

-- The formats and attachments of a message of the second family.
def parts2 (m : Message) : List Format × List Attachment :=
  match m.body with
  | .propose2 _ _ formats attachments => (formats, attachments)
  | .offer2 _ _ _ formats attachments => (formats, attachments)
  | .request2 _ formats attachments => (formats, attachments)
  | .issue2 _ _ formats attachments => (formats, attachments)
  | _ => ([], [])

end Message

namespace Version

-- The identifier of the attachment that holds the payload.
def attachmentId : Version → Kind → String
  | .v1, .request => "libindy-cred-request-0"
  | .v1, .issue => "libindy-cred-0"
  | .v1, _ => "libindy-cred-offer-0"
  | .v2, _ => "indy"

-- The format advertised for the payload of a message of the second family.
def formatName : Kind → String
  | .propose => "hlindy/cred-filter@v2.0"
  | .offer => "hlindy/cred-abstract@v2.0"
  | .request => "hlindy/cred-req@v2.0"
  | _ => "hlindy/cred@v2.0"

def formatsFor (kind : Kind) : List Format := [⟨attachmentId .v2 kind, formatName kind⟩]

def attach (version : Version) (kind : Kind) (payload : String) : List Attachment :=
  [.ofText (version.attachmentId kind) payload]

def propose (version : Version) (header : Header) (p : Proposal) : Message :=
  let preview := if p.attributes = [] then none else some ⟨version.previewType, p.attributes⟩
  match version with
  | .v1 => ⟨header, .propose1 p.notes.comment preview p.terms⟩
  | .v2 =>
    match p.terms.filter? with
    | some filter =>
      ⟨header, .propose2 p.notes preview (formatsFor .propose) (attach .v2 .propose filter)⟩
    | none => ⟨header, .propose2 p.notes preview [] []⟩

def offer (version : Version) (header : Header) (payload : String) (d : OfferDetails) : Message :=
  let preview : Preview := ⟨version.previewType, d.attributes⟩
  match version with
  | .v1 => ⟨header, .offer1 d.notes.comment preview (attach .v1 .offer payload)⟩
  | .v2 => ⟨header,
      .offer2 d.notes d.replacement (some preview) (formatsFor .offer) (attach .v2 .offer payload)⟩

-- The goals of an offer of the second family.
def goals (offer : Message) : Option String × Option String :=
  match offer.body with
  | .offer2 notes _ _ _ _ => (notes.goalCode, notes.goal)
  | _ => (none, none)

def replacement (offer : Message) : Option String :=
  match offer.body with
  | .offer2 _ replacement _ _ _ => replacement
  | _ => none

-- A request repeats what the offer says about itself.
def request (version : Version) (header : Header) (payload : String) (offer : Message) : Message :=
  match version with
  | .v1 => ⟨header, .request1 offer.comment (attach .v1 .request payload)⟩
  | .v2 => ⟨header, .request2 ⟨offer.comment, (goals offer).1, (goals offer).2⟩
      (formatsFor .request) (attach .v2 .request payload)⟩

-- A credential repeats the goals of the offer, but has a comment of its own.
def issue (version : Version) (header : Header) (payload : String) (comment : Option String)
    (offer : Message) : Message :=
  match version with
  | .v1 => ⟨header, .issue1 comment (attach .v1 .issue payload)⟩
  | .v2 => ⟨header, .issue2 ⟨comment, (goals offer).1, (goals offer).2⟩ (replacement offer)
      (formatsFor .issue) (attach .v2 .issue payload)⟩

def ack (version : Version) (header : Header) : Message := ⟨header, .ack version .ok⟩

def problemReport (version : Version) (header : Header) (code text : String) : Message :=
  ⟨header, .problemReport version code (some text)⟩

-- The payload at the place where the family keeps that of the kind. The second family looks
-- only for attachments that are advertised.
def extract (version : Version) (m : Message) (kind : Kind) : Except Error String :=
  match version with
  | .v1 => do (← Attachment.find m.attachments1 (attachmentId .v1 kind)).payload
  | .v2 => do
    Format.require m.parts2.1 (attachmentId .v2 kind)
    (← Attachment.find m.parts2.2 (attachmentId .v2 kind)).payload

-- The payload of a message of this family and kind.
def payload (version : Version) (m : Message) (kind : Kind) : Except Error String :=
  if m.version = version ∧ m.kind = kind then version.extract m kind
  else .error (.invalidMessage (.wrongMessage version kind m.type))

-- The attributes a proposal or an offer of this family lists.
def preview (version : Version) (m : Message) : Option (List Attribute) :=
  match version, m.body with
  | .v1, .propose1 _ preview _ => preview.map Preview.attributes
  | .v1, .offer1 _ preview _ => some preview.attributes
  | .v2, .propose2 _ preview _ _ => preview.map Preview.attributes
  | .v2, .offer2 _ _ preview _ _ => preview.map Preview.attributes
  | _, _ => none

def attributes (version : Version) (m : Message) : List Attribute := (version.preview m).getD []

-- The credential definition a proposal of this family names. In the second family it stands in
-- the filter.
def proposedDefinition (version : Version) (m : Message) : Except Error (Option String) :=
  match version, m.body with
  | .v1, .propose1 _ _ terms => .ok terms.definition
  | .v2, .propose2 _ _ formats filters =>
    let id := attachmentId .v2 .propose
    if formats.any fun f => f.attachment = id then do
      let filter ← (← Attachment.find filters id).payload
      match Json.parse? filter with
      | some j => .ok ((j.get? "cred_def_id").bind Json.str?)
      | none => .error (.invalidMessage .filterNotJson)
    else .ok none
  | _, _ => .ok none

end Version

end CredentialIssuance
