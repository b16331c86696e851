import CredentialIssuance.Proofs.Family
import CredentialIssuance.Proofs.Plaintext

namespace CredentialIssuance

-- What a message is built from, besides its header.
inductive Draft where
  | propose (proposal : Proposal)
  | offer (payload : String) (details : OfferDetails)
  | request (payload : String) (offered : Message)
  | issue (payload : String) (comment : Option String) (offered : Message)
  | ack
  | problemReport (code text : String)

namespace Draft

def message (version : Version) (header : Header) : Draft → Message
  | .propose proposal => version.propose header proposal
  | .offer payload details => version.offer header payload details
  | .request payload offered => version.request header payload offered
  | .issue payload comment offered => version.issue header payload comment offered
  | .ack => version.ack header
  | .problemReport code text => version.problemReport header code text

def kind : Draft → Kind
  | .propose _ => .propose
  | .offer .. => .offer
  | .request .. => .request
  | .issue .. => .issue
  | .ack => .ack
  | .problemReport .. => .problemReport

-- The text that is given to be carried.
def payload? : Draft → Option String
  | .offer payload _ | .request payload _ | .issue payload _ _ => some payload
  | .propose _ | .ack | .problemReport .. => none

end Draft

-- What holds no inline JSON is read back from its text.

theorem Body.legible_of_encoded {b : Body} (h : b.Encoded) (depth : Nat) : b.Legible depth := by
  intro a ha j hj
  cases (h a ha).symm.trans hj

theorem Message.decode_encoded {m : Message} (h : m.body.Encoded) : decode m.toJson.text = .ok m :=
  decode_text (plain_of_encoded h) (Body.legible_of_encoded h 123)

namespace Draft

section Built

variable (version : Version) (header : Header) (d : Draft)

theorem encoded : (d.message version header).body.Encoded := by
  cases d with
  | propose proposal => exact version.propose_encoded header proposal
  | offer payload details => exact version.offer_encoded header payload details
  | request payload offered => exact version.request_encoded header payload offered
  | issue payload comment offered => exact version.issue_encoded header payload comment offered
  | ack | problemReport code text => exact List.forall_mem_nil _

theorem header_message : (d.message version header).header = header := by
  cases d with
  | propose proposal => exact (version.propose_is header proposal).2
  | offer payload details => exact (version.offer_is header payload details).2
  | request payload offered => exact (version.request_is header payload offered).2
  | issue payload comment offered => exact (version.issue_is header payload comment offered).2
  | ack => rfl
  | problemReport code text => rfl

theorem kind_message : (d.message version header).kind = d.kind := by
  cases d with
  | propose proposal => exact (version.propose_is header proposal).1
  | offer payload details => exact (version.offer_is header payload details).1
  | request payload offered => exact (version.request_is header payload offered).1
  | issue payload comment offered => exact (version.issue_is header payload comment offered).1
  | ack => rfl
  | problemReport code text => rfl

theorem version_message : (d.message version header).version = version := by
  cases d with
  | propose proposal => exact version.propose_version header proposal
  | offer payload details => cases version <;> rfl
  | request payload offered => cases version <;> rfl
  | issue payload comment offered => cases version <;> rfl
  | ack => rfl
  | problemReport code text => rfl

theorem payload_message {payload : String} (h : d.payload? = some payload) :
    version.payload (d.message version header) d.kind = .ok payload := by
  cases d with
  | propose proposal | ack | problemReport code text => cases h
  | offer carried details =>
    cases h
    exact version.payload_offer header payload details
  | request carried offered =>
    cases h
    exact version.payload_request header payload offered
  | issue carried comment offered =>
    cases h
    exact version.payload_issue header payload comment offered

-- It is refused by the other family, and as any other kind.
theorem payload_foreign {other : Version} {kind : Kind} (h : (other, kind) ≠ (version, d.kind)) :
    other.payload (d.message version header) kind =
      .error (.invalidMessage (.wrongMessage other kind (typeUri version d.kind))) := by
  have hforeign : ¬((d.message version header).version = other ∧
      (d.message version header).kind = kind) := by
    rw [version_message, kind_message]
    rintro ⟨rfl, rfl⟩
    exact h rfl
  rw [Version.payload, if_neg hforeign, Message.type, version_message, kind_message]

end Built

-- What has been built is read as it was built, from its value and from its text, and so all that
-- can be read in it survives: the thread, the payload and the attributes of an offer.
theorem survives_wire (version : Version) (header : Header) (d : Draft) :
    let m := d.message version header
    Message.ofJson m.toJson = .ok m ∧ Message.decode m.toJson.text = .ok m ∧
    (m.header = header ∧ m.threadId = (header.thread.map Thread.id).getD header.id) ∧
    (∀ thread, (d.message version (.opening thread)).threadId = thread ∧
      (d.message version (.opening thread)).id = thread) ∧
    (∀ id thread, (d.message version (.reply id thread)).threadId = thread) ∧
    (∀ payload ∈ d.payload?, version.payload m d.kind = .ok payload ∧
      (do version.payload (← Message.ofJson m.toJson) d.kind) = Except.ok payload ∧
      (do version.payload (← Message.decode m.toJson.text) d.kind) = Except.ok payload) ∧
    (∀ payload details, d = .offer payload details →
      version.preview m = some details.attributes) ∧
    ∀ other kind, (other, kind) ≠ (version, d.kind) → ∃ fault,
      other.payload m kind = .error (.invalidMessage fault) := by
  have hread : Message.ofJson (d.message version header).toJson = .ok (d.message version header) :=
    Message.ofJson_toJson (Message.plain_of_encoded (d.encoded version header))
  have hdecoded := Message.decode_encoded (d.encoded version header)
  have hheader := d.header_message version header
  refine ⟨hread, hdecoded, ⟨hheader, ?thread⟩, fun thread => ?opening, fun id thread => ?reply,
    fun payload hpayload => ?payload, ?preview, fun other kind h => ?foreign⟩
  case thread =>
    rw [Message.threadId, hheader]
    cases header.thread <;> rfl
  case opening =>
    have hopening := d.header_message version (.opening thread)
    exact ⟨Message.threadId_opening hopening, congrArg Header.id hopening⟩
  case reply =>
    exact Message.threadId_reply (d.header_message version (.reply id thread))
  case payload =>
    have hcarried := d.payload_message version header hpayload
    exact ⟨hcarried, by rw [hread]; exact hcarried, by rw [hdecoded]; exact hcarried⟩
  case preview =>
    rintro payload details rfl
    exact version.preview_offer header payload details
  case foreign => exact ⟨_, d.payload_foreign version header h⟩

-- An offer of the first family, whose payload has quotes and characters beyond ASCII.
theorem survives_wire_offer :
    let details := { OfferDetails.blank with attributes := [⟨"given \"name\"", none, "Zoë"⟩] }
    let m := Version.offer .v1 (.reply "m" "t") "\"é\\" details
    m.threadId = "t" ∧
    (do Version.payload .v1 (← Message.decode m.toJson.text) .offer) = Except.ok "\"é\\" ∧
    Version.preview .v1 m = some details.attributes ∧
    ∃ fault, Version.payload .v2 m .offer = .error (.invalidMessage fault) := by
  intro details m
  obtain ⟨-, -, -, -, hthread, hpayload, hpreview, hforeign⟩ :=
    survives_wire .v1 (.reply "m" "t") (.offer "\"é\\" details)
  exact ⟨hthread "m" "t", (hpayload _ rfl).2.2, hpreview _ _ rfl, hforeign .v2 .offer (by decide)⟩

end Draft

end CredentialIssuance
