namespace CredentialIssuance

inductive Version where
  | v1
  | v2
  deriving DecidableEq, Repr

inductive Kind where
  | propose
  | offer
  | request
  | issue
  | ack
  | problemReport
  deriving DecidableEq, Repr

namespace Version

def all : List Version := [.v1, .v2]

def name : Version → String
  | .v1 => "v1"
  | .v2 => "v2"

-- The type of the attribute list inside a proposal or an offer.
def previewType : Version → String
  | .v1 => "https://didcomm.org/issue-credential/1.0/credential-preview"
  | .v2 => "https://didcomm.org/issue-credential/2.0/credential-preview"

end Version

namespace Kind

def all : List Kind := [.propose, .offer, .request, .issue, .ack, .problemReport]

def name : Kind → String
  | .propose => "propose"
  | .offer => "offer"
  | .request => "request"
  | .issue => "issue"
  | .ack => "ack"
  | .problemReport => "problem-report"

end Kind

-- The type of a message. Reports of the first family come from a family of their own.
def typeUri : Version → Kind → String
  | .v1, .propose => "https://didcomm.org/issue-credential/1.0/propose-credential"
  | .v1, .offer => "https://didcomm.org/issue-credential/1.0/offer-credential"
  | .v1, .request => "https://didcomm.org/issue-credential/1.0/request-credential"
  | .v1, .issue => "https://didcomm.org/issue-credential/1.0/issue-credential"
  | .v1, .ack => "https://didcomm.org/issue-credential/1.0/ack"
  | .v1, .problemReport => "https://didcomm.org/notification/1.0/problem-report"
  | .v2, .propose => "https://didcomm.org/issue-credential/2.0/propose-credential"
  | .v2, .offer => "https://didcomm.org/issue-credential/2.0/offer-credential"
  | .v2, .request => "https://didcomm.org/issue-credential/2.0/request-credential"
  | .v2, .issue => "https://didcomm.org/issue-credential/2.0/issue-credential"
  | .v2, .ack => "https://didcomm.org/issue-credential/2.0/ack"
  | .v2, .problemReport => "https://didcomm.org/issue-credential/2.0/problem-report"

def messageTypes : List (Version × Kind) :=
  Version.all.flatMap fun version => Kind.all.map (version, ·)

-- The family and kind a type names.
def typeOf? (uri : String) : Option (Version × Kind) :=
  messageTypes.find? fun (version, kind) => typeUri version kind = uri

end CredentialIssuance
