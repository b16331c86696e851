import CredentialIssuance.Proofs.Location

namespace CredentialIssuance

-- No attachment holds inline JSON.
def Body.Encoded (b : Body) : Prop := ∀ a ∈ b.attachments, a.json = none

theorem Message.plain_of_encoded {m : Message} (h : m.body.Encoded) : m.Plain := by
  intro a ha hnull
  cases (h a ha).symm.trans hnull

namespace Version

variable (version : Version) (header : Header)

theorem find_attach (kind : Kind) (payload : String) :
    Attachment.find (version.attach kind payload) (version.attachmentId kind) =
      .ok (.ofText (version.attachmentId kind) payload) := by
  simp [Attachment.find, attach, Attachment.ofText]

theorem payload_attach (kind : Kind) (payload : String) :
    (do (← Attachment.find (version.attach kind payload) (version.attachmentId kind)).payload) =
      Except.ok payload := by
  rw [find_attach]
  exact Attachment.payload_ofText (version.attachmentId kind) payload

-- What a family attaches is never inline.
theorem attach_encoded (kind : Kind) (payload : String) :
    ∀ a ∈ version.attach kind payload, a.json = none := by
  intro a ha
  rw [List.mem_singleton.1 ha]
  rfl

theorem propose_encoded (proposal : Proposal) : (version.propose header proposal).body.Encoded := by
  cases version with
  | v1 => exact List.forall_mem_nil _
  | v2 =>
    simp only [propose]
    split
    · exact attach_encoded .v2 .propose _
    · exact List.forall_mem_nil _

theorem propose_plain (proposal : Proposal) : (version.propose header proposal).Plain :=
  Message.plain_of_encoded (version.propose_encoded header proposal)

theorem propose_is (proposal : Proposal) :
    (version.propose header proposal).kind = .propose ∧
      (version.propose header proposal).header = header := by
  cases version with
  | v1 => exact ⟨rfl, rfl⟩
  | v2 =>
    simp only [propose]
    split <;> exact ⟨rfl, rfl⟩

theorem propose_version (proposal : Proposal) :
    (version.propose header proposal).version = version := by
  cases version with
  | v1 => rfl
  | v2 =>
    simp only [propose]
    split <;> rfl

section Payloads

variable (payload : String)

theorem offer_is (details : OfferDetails) :
    (version.offer header payload details).kind = .offer ∧
      (version.offer header payload details).header = header := by
  cases version <;> exact ⟨rfl, rfl⟩

theorem request_is (offer : Message) :
    (version.request header payload offer).kind = .request ∧
      (version.request header payload offer).header = header := by
  cases version <;> exact ⟨rfl, rfl⟩

theorem issue_is (comment : Option String) (offer : Message) :
    (version.issue header payload comment offer).kind = .issue ∧
      (version.issue header payload comment offer).header = header := by
  cases version <;> exact ⟨rfl, rfl⟩

theorem preview_offer (details : OfferDetails) :
    version.preview (version.offer header payload details) = some details.attributes := by
  cases version <;> rfl

theorem attributes_offer (details : OfferDetails) :
    version.attributes (version.offer header payload details) = details.attributes := by
  rw [attributes, preview_offer, Option.getD_some]

-- In the second family the format of the attachment is advertised with it.

theorem payload_offer (details : OfferDetails) :
    version.payload (version.offer header payload details) .offer = .ok payload := by
  cases version with
  | v1 => exact payload_attach .v1 .offer payload
  | v2 => exact payload_attach .v2 .offer payload

theorem payload_request (offer : Message) :
    version.payload (version.request header payload offer) .request = .ok payload := by
  cases version with
  | v1 => exact payload_attach .v1 .request payload
  | v2 => exact payload_attach .v2 .request payload

theorem payload_issue (comment : Option String) (offer : Message) :
    version.payload (version.issue header payload comment offer) .issue = .ok payload := by
  cases version with
  | v1 => exact payload_attach .v1 .issue payload
  | v2 => exact payload_attach .v2 .issue payload

theorem offer_encoded (details : OfferDetails) :
    (version.offer header payload details).body.Encoded := by
  cases version with
  | v1 => exact attach_encoded .v1 .offer payload
  | v2 => exact attach_encoded .v2 .offer payload

theorem offer_plain (details : OfferDetails) : (version.offer header payload details).Plain :=
  Message.plain_of_encoded (version.offer_encoded header payload details)

theorem request_encoded (offer : Message) :
    (version.request header payload offer).body.Encoded := by
  cases version with
  | v1 => exact attach_encoded .v1 .request payload
  | v2 => exact attach_encoded .v2 .request payload

theorem request_plain (offer : Message) : (version.request header payload offer).Plain :=
  Message.plain_of_encoded (version.request_encoded header payload offer)

theorem issue_encoded (comment : Option String) (offer : Message) :
    (version.issue header payload comment offer).body.Encoded := by
  cases version with
  | v1 => exact attach_encoded .v1 .issue payload
  | v2 => exact attach_encoded .v2 .issue payload

theorem issue_plain (comment : Option String) (offer : Message) :
    (version.issue header payload comment offer).Plain :=
  Message.plain_of_encoded (version.issue_encoded header payload comment offer)

end Payloads

end Version

namespace Message

variable {m : Message} {id thread : String}

theorem threadId_opening (h : m.header = .opening thread) : m.threadId = thread := by
  rw [threadId, h]
  rfl

theorem threadId_reply (h : m.header = .reply id thread) : m.threadId = thread := by
  rw [threadId, h]
  rfl

end Message

end CredentialIssuance
