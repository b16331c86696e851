import CredentialIssuance.Message.Attachment

namespace CredentialIssuance

structure Thread where
  id : String
  parent : Option String
  deriving DecidableEq

structure Header where
  id : String
  thread : Option Thread
  deriving DecidableEq

namespace Header

-- The first message of a thread gives the thread its identifier.
def opening (thread : String) : Header := ⟨thread, none⟩

def reply (id thread : String) : Header := ⟨id, some ⟨thread, none⟩⟩

end Header

inductive AckStatus where
  | ok
  | fail
  | pending
  deriving DecidableEq, Repr

-- What a sender may say about a message. The first family has the comment only.
structure Notes where
  comment : Option String
  goalCode : Option String
  goal : Option String
  deriving DecidableEq

-- What a proposal asks for, each part of it if the holder cares.
structure Terms where
  definition : Option String
  schemaId : Option String
  schemaIssuer : Option String
  schemaName : Option String
  schemaVersion : Option String
  issuer : Option String
  deriving DecidableEq

inductive Body where
  | propose1 (comment : Option String) (preview : Option Preview) (terms : Terms)
  | offer1 (comment : Option String) (preview : Preview) (offers : List Attachment)
  | request1 (comment : Option String) (requests : List Attachment)
  | issue1 (comment : Option String) (credentials : List Attachment)
  | propose2 (notes : Notes) (preview : Option Preview) (formats : List Format)
      (filters : List Attachment)
  | offer2 (notes : Notes) (replacement : Option String) (preview : Option Preview)
      (formats : List Format) (offers : List Attachment)
  | request2 (notes : Notes) (formats : List Format) (requests : List Attachment)
  | issue2 (notes : Notes) (replacement : Option String) (formats : List Format)
      (credentials : List Attachment)
  | ack (version : Version) (status : AckStatus)
  | problemReport (version : Version) (code : String) (text : Option String)
  deriving DecidableEq

-- The header places a message on a thread, and the constructor of the body fixes its family and
-- kind.
structure Message where
  header : Header
  body : Body
  deriving DecidableEq

namespace Body

def version : Body → Version
  | .propose1 .. | .offer1 .. | .request1 .. | .issue1 .. => .v1
  | .propose2 .. | .offer2 .. | .request2 .. | .issue2 .. => .v2
  | .ack version _ => version
  | .problemReport version _ _ => version

def kind : Body → Kind
  | .propose1 .. | .propose2 .. => .propose
  | .offer1 .. | .offer2 .. => .offer
  | .request1 .. | .request2 .. => .request
  | .issue1 .. | .issue2 .. => .issue
  | .ack .. => .ack
  | .problemReport .. => .problemReport

def comment : Body → Option String
  | .propose1 comment .. | .offer1 comment .. | .request1 comment .. | .issue1 comment .. => comment
  | .propose2 notes .. | .offer2 notes .. | .request2 notes .. | .issue2 notes .. => notes.comment
  | .ack .. => none
  | .problemReport _ _ text => text

end Body

namespace Message

def id (m : Message) : String := m.header.id

def version (m : Message) : Version := m.body.version

def kind (m : Message) : Kind := m.body.kind

def type (m : Message) : String := typeUri m.version m.kind

def comment (m : Message) : Option String := m.body.comment

-- A message without a thread opens one named after itself.
def threadId (m : Message) : String :=
  match m.header.thread with
  | some thread => thread.id
  | none => m.header.id

def parentThreadId (m : Message) : Option String := m.header.thread.bind Thread.parent

end Message

end CredentialIssuance
