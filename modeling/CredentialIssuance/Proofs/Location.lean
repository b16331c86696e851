import CredentialIssuance.Message.Family
import CredentialIssuance.Proofs.Encoding
import CredentialIssuance.Proofs.Text
import CredentialIssuance.Proofs.Wire

namespace CredentialIssuance

open Json

namespace Attachment

-- The first of the attachments with the identifier.
def FirstIn (a : Attachment) (attachments : List Attachment) (id : String) : Prop :=
  ∃ before after, attachments = before ++ a :: after ∧ a.id = id ∧ ∀ b ∈ before, b.id ≠ id

-- The text of an attachment, as base64 or else as inline JSON, which stands for its compact text.
inductive Carries (a : Attachment) (text : String) : Prop
  | encoded (h : a.base64 = some (Base64.ofText text))
  | inline {json : Json} (absent : a.base64 = none) (h : a.json = some json)
      (compact : json.text = text)

-- Why an attachment carries no text.
inductive Corrupt (a : Attachment) : Fault → Prop
  | noData (absent : a.base64 = none) (h : a.json = none) : Corrupt a (.noData a.id)
  | notBase64 {encoded : String} (h : a.base64 = some encoded)
      (corrupt : ∀ bytes, String.ofList (Base64.encode bytes) ≠ encoded) : Corrupt a .notBase64
  | notUtf8 {bytes : List UInt8} (h : a.base64 = some (String.ofList (Base64.encode bytes)))
      (corrupt : ∀ text : String, text.toUTF8.data.toList ≠ bytes) : Corrupt a .notUtf8

-- The attachment with the compact text of its inline JSON as base64.
def encoded (a : Attachment) : Attachment :=
  match a.base64, a.json with
  | none, some json => ⟨a.id, a.mimeType, some (Base64.ofText json.text), none⟩
  | _, _ => a

section Payload

variable {a : Attachment} {attachments attachments' : List Attachment} {id text : String}
  {fault : Fault}

theorem FirstIn.mem (h : a.FirstIn attachments id) : a ∈ attachments := by
  obtain ⟨before, after, rfl, -, -⟩ := h
  simp

theorem find_eq_ok_iff : find attachments id = .ok a ↔ a.FirstIn attachments id := by
  have hfirst : (attachments.find? fun b => b.id = id) = some a ↔ a.FirstIn attachments id := by
    rw [List.find?_eq_some_iff_append]
    simp [FirstIn, and_left_comm]
  rw [← hfirst, find]
  cases attachments.find? fun b => b.id = id <;> simp

theorem find_missing (h : ∀ b ∈ attachments, b.id ≠ id) :
    find attachments id = .error (.attachmentMissing id) := by
  have hnone : (attachments.find? fun b => b.id = id) = none := by simpa using h
  simp only [find, hnone]

theorem find_ends (attachments : List Attachment) (id : String) :
    (∃ a : Attachment, a.FirstIn attachments id) ∨ ∀ b ∈ attachments, b.id ≠ id := by
  cases hfind : attachments.find? fun b => b.id = id with
  | none => exact .inr (by simpa using hfind)
  | some a => exact .inl ⟨a, find_eq_ok_iff.1 (by simp only [find, hfind])⟩

theorem Carries.payload (h : a.Carries text) : a.payload = .ok text := by
  cases h with
  | encoded h =>
    rw [Attachment.payload, h]
    exact decode_ofText text
  | inline absent h compact => rw [Attachment.payload, absent, h, ← compact]

theorem Corrupt.payload (h : a.Corrupt fault) : a.payload = .error (.invalidMessage fault) := by
  cases h with
  | noData absent h => rw [Attachment.payload, absent, h]
  | notBase64 h corrupt =>
    rw [Attachment.payload, h]
    exact decode_not_base64 corrupt
  | notUtf8 h corrupt =>
    rw [Attachment.payload, h]
    exact decode_not_utf8 corrupt

-- An attachment carries a text, or there is a reason why it does not.
theorem payload_ends (a : Attachment) : (∃ text, a.Carries text) ∨ ∃ fault, a.Corrupt fault := by
  cases hbase64 : a.base64 with
  | none =>
    cases hjson : a.json with
    | none => exact .inr ⟨_, .noData hbase64 hjson⟩
    | some json => exact .inl ⟨_, .inline hbase64 hjson rfl⟩
  | some encoded =>
    by_cases hbytes : ∃ bytes, String.ofList (Base64.encode bytes) = encoded
    · obtain ⟨bytes, rfl⟩ := hbytes
      by_cases htext : ∃ text : String, text.toUTF8.data.toList = bytes
      · obtain ⟨text, rfl⟩ := htext
        exact .inl ⟨text, .encoded hbase64⟩
      · exact .inr ⟨_, .notUtf8 hbase64 (not_exists.1 htext)⟩
    · exact .inr ⟨_, .notBase64 hbase64 (not_exists.1 hbytes)⟩

-- Inline JSON stands in the value that the attachment was read from.
theorem json_within {j value : Json} (h : ofJson? j = some a) (hvalue : a.json = some value) :
    value.Within j := by
  simp only [ofJson?, Option.bind_eq_bind, Option.bind_eq_some_iff, Option.pure_def,
    Option.some.injEq] at h
  obtain ⟨ms, hms, _, -, _, -, data, hdata, _, -, json, hjson, rfl⟩ := h
  obtain ⟨part, hpart, hmembers⟩ := Option.bind_eq_some_iff.1 hdata
  rw [optional_eq] at hjson
  have hfound := of_nullable_some (hjson.trans (congrArg some hvalue))
  have hinner : value.Within part := within_of_lookup hmembers hfound
  exact hinner.trans (within_of_lookup hms hpart)

theorem id_encoded (a : Attachment) : a.encoded.id = a.id := by
  unfold encoded
  split <;> rfl

-- Inline JSON is read like the base64 of its compact text.
theorem payload_encoded (a : Attachment) : a.encoded.payload = a.payload := by
  unfold encoded
  split
  · next json hbase64 hjson =>
    rw [payload, payload, hbase64, hjson]
    exact decode_ofText json.text
  · rfl

theorem find_payload_congr
    (h : List.Forall₂ (fun a b => b.id = a.id ∧ b.payload = a.payload) attachments attachments') :
    (do (← find attachments' id).payload) = (do (← find attachments id).payload) := by
  induction h with
  | nil => rfl
  | @cons a b rest rest' hsame _ ih =>
    obtain ⟨hid, hpayload⟩ := hsame
    by_cases hfirst : a.id = id
    · simp only [find, List.find?_cons, hid, hfirst, decide_true]
      exact hpayload
    · simpa [find, List.find?_cons, hid, hfirst] using ih

end Payload

end Attachment

-- The formats that a message of the second family advertises.
def Body.formats : Body → List Format
  | .propose2 _ _ formats _ | .offer2 _ _ _ formats _ => formats
  | .request2 _ formats _ | .issue2 _ _ formats _ => formats
  | .propose1 .. | .offer1 .. | .request1 .. | .issue1 .. | .ack .. | .problemReport .. => []

theorem Message.attachments1_eq (m : Message) (h : m.version = .v1) :
    m.attachments1 = m.body.attachments := by
  obtain ⟨header, body⟩ := m
  cases body <;> first | rfl | cases h

theorem Message.parts2_eq (m : Message) (h : m.version = .v2) :
    m.parts2 = (m.body.formats, m.body.attachments) := by
  obtain ⟨header, body⟩ := m
  cases body <;> first | rfl | cases h

namespace Version

-- The second family asks for an entry that advertises the attachment.
def Advertises (version : Version) (m : Message) : Prop :=
  version = .v2 → ∃ f ∈ m.body.formats, f.attachment = "indy"

-- Why a message is refused, each reason where those before it do not hold.
inductive Refuses (version : Version) (m : Message) (kind : Kind) : Error → Prop
  | foreign (other : (m.version, m.kind) ≠ (version, kind)) :
      Refuses version m kind (.invalidMessage (.wrongMessage version kind m.type))
  | unadvertised (own : (m.version, m.kind) = (version, kind)) (second : version = .v2)
      (none : ∀ f ∈ m.body.formats, f.attachment ≠ "indy") :
      Refuses version m kind (.formatMissing "indy")
  | missing (own : (m.version, m.kind) = (version, kind)) (advertised : version.Advertises m)
      (none : ∀ a ∈ m.body.attachments, a.id ≠ version.attachmentId kind) :
      Refuses version m kind (.attachmentMissing (version.attachmentId kind))
  | corrupt (own : (m.version, m.kind) = (version, kind)) (advertised : version.Advertises m)
      {a : Attachment} (first : a.FirstIn m.body.attachments (version.attachmentId kind))
      {fault : Fault} (h : a.Corrupt fault) : Refuses version m kind (.invalidMessage fault)

-- The identifiers that the first family fixes, for the kinds that have a payload.
def fixedIds : List (Kind × String) :=
  [(.offer, "libindy-cred-offer-0"), (.request, "libindy-cred-request-0"), (.issue, "libindy-cred-0")]

theorem mem_fixedIds {m : Message} (h : m.version = .v1) {a : Attachment}
    (ha : a ∈ m.body.attachments) : (m.kind, attachmentId .v1 m.kind) ∈ fixedIds := by
  obtain ⟨header, body⟩ := m
  cases body with
  | offer1 comment preview offers | request1 comment requests | issue1 comment credentials =>
    simp [Message.kind, Body.kind, attachmentId, fixedIds]
  | propose2 | offer2 | request2 | issue2 => cases h
  | propose1 | ack | problemReport => cases ha

theorem attachmentId_of_mem {kind : Kind} {id : String} (h : (kind, id) ∈ fixedIds) :
    id = attachmentId .v1 kind := by
  simp only [fixedIds, List.mem_cons, Prod.mk.injEq, List.not_mem_nil, or_false] at h
  obtain ⟨rfl, rfl⟩ | ⟨rfl, rfl⟩ | ⟨rfl, rfl⟩ := h <;> rfl

section Payload

variable {version : Version} {m : Message} {kind : Kind} {text : String} {x : Error}

theorem payload_own (own : (m.version, m.kind) = (version, kind)) (advertised : version.Advertises m) :
    version.payload m kind =
      (do (← Attachment.find m.body.attachments (version.attachmentId kind)).payload) := by
  obtain ⟨hversion, hkind⟩ := Prod.mk.inj own
  rw [payload, if_pos ⟨hversion, hkind⟩]
  cases version with
  | v1 => rw [extract, m.attachments1_eq hversion]
  | v2 =>
    have hrequired : Format.require m.body.formats (attachmentId .v2 kind) = .ok () := by
      obtain ⟨f, hf, hid⟩ := advertised rfl
      exact if_pos (List.any_eq_true.2 ⟨f, hf, decide_eq_true hid⟩)
    rw [extract, m.parts2_eq hversion]
    simp only [hrequired]
    rfl

theorem payload_of_carries (own : (m.version, m.kind) = (version, kind))
    (advertised : version.Advertises m) {a : Attachment}
    (first : a.FirstIn m.body.attachments (version.attachmentId kind)) (h : a.Carries text) :
    version.payload m kind = .ok text := by
  rw [payload_own own advertised, Attachment.find_eq_ok_iff.2 first]
  exact h.payload

theorem Refuses.payload (h : version.Refuses m kind x) : version.payload m kind = .error x := by
  cases h with
  | foreign other => exact if_neg fun own => other (Prod.ext own.1 own.2)
  | unadvertised own second none =>
    subst second
    obtain ⟨hversion, hkind⟩ := Prod.mk.inj own
    have hrefused : Format.require m.body.formats (attachmentId .v2 kind) =
        .error (.formatMissing "indy") := by
      refine if_neg fun hany => ?_
      obtain ⟨f, hf, hid⟩ := List.any_eq_true.1 hany
      exact none f hf (of_decide_eq_true hid)
    rw [Version.payload, if_pos ⟨hversion, hkind⟩, extract, m.parts2_eq hversion]
    simp only [hrefused]
    rfl
  | missing own advertised none =>
    rw [payload_own own advertised, Attachment.find_missing none]
    rfl
  | corrupt own advertised first h =>
    rw [payload_own own advertised, Attachment.find_eq_ok_iff.2 first]
    exact h.payload

-- A message is refused, or it is one of the family and kind whose first attachment carries a text.
theorem payload_ends (version : Version) (m : Message) (kind : Kind) :
    (∃ x, version.Refuses m kind x) ∨
      (m.version, m.kind) = (version, kind) ∧ version.Advertises m ∧
        ∃ a : Attachment, a.FirstIn m.body.attachments (version.attachmentId kind) ∧
          ∃ text, a.Carries text := by
  by_cases own : (m.version, m.kind) = (version, kind)
  swap
  · exact .inl ⟨_, .foreign own⟩
  by_cases advertised : version.Advertises m
  swap
  · obtain ⟨second, hnone⟩ := Classical.not_imp.1 advertised
    exact .inl ⟨_, .unadvertised own second fun f hf hid => hnone ⟨f, hf, hid⟩⟩
  obtain ⟨a, first⟩ | hmissing :=
    Attachment.find_ends m.body.attachments (version.attachmentId kind)
  swap
  · exact .inl ⟨_, .missing own advertised hmissing⟩
  obtain ⟨text, h⟩ | ⟨fault, h⟩ := a.payload_ends
  · exact .inr ⟨own, advertised, a, first, text, h⟩
  · exact .inl ⟨_, .corrupt own advertised first h⟩

theorem payload_eq_ok_iff : version.payload m kind = .ok text ↔
    (m.version, m.kind) = (version, kind) ∧ version.Advertises m ∧
      ∃ a : Attachment, a.FirstIn m.body.attachments (version.attachmentId kind) ∧ a.Carries text := by
  constructor
  · intro h
    obtain ⟨x, hrefused⟩ | ⟨own, advertised, a, first, text, hcarried⟩ := version.payload_ends m kind
    · cases h.symm.trans hrefused.payload
    · cases h.symm.trans (payload_of_carries own advertised first hcarried)
      exact ⟨own, advertised, a, first, hcarried⟩
  · rintro ⟨own, advertised, a, first, h⟩
    exact payload_of_carries own advertised first h

-- What has a payload of a kind is of that kind.
theorem payload_eq_ok (h : version.payload m kind = .ok text) :
    m.version = version ∧ m.kind = kind :=
  Prod.mk.inj (payload_eq_ok_iff.1 h).1

theorem payload_eq_error_iff : version.payload m kind = .error x ↔ version.Refuses m kind x := by
  constructor
  · intro h
    obtain ⟨x, hrefused⟩ | ⟨own, advertised, a, first, text, hcarried⟩ := version.payload_ends m kind
    · cases h.symm.trans hrefused.payload
      exact hrefused
    · cases h.symm.trans (payload_of_carries own advertised first hcarried)
  · exact Refuses.payload

-- A message is read like another one that differs in attachments of equal payloads only.
theorem payload_congr {m' : Message} (hversion : m'.version = m.version) (hkind : m'.kind = m.kind)
    (hformats : m'.body.formats = m.body.formats)
    (hattachments : List.Forall₂ (fun a b : Attachment => b.id = a.id ∧ b.payload = a.payload)
      m.body.attachments m'.body.attachments) :
    version.payload m' kind = version.payload m kind := by
  by_cases own : (m.version, m.kind) = (version, kind)
  swap
  · have other : (m'.version, m'.kind) ≠ (version, kind) := by rwa [hversion, hkind]
    rw [(Refuses.foreign own).payload, (Refuses.foreign other).payload, Message.type, Message.type,
      hversion, hkind]
  have own' : (m'.version, m'.kind) = (version, kind) := by rwa [hversion, hkind]
  by_cases advertised : version.Advertises m
  swap
  · obtain ⟨second, hnone⟩ := Classical.not_imp.1 advertised
    have none : ∀ f ∈ m.body.formats, f.attachment ≠ "indy" := fun f hf hid => hnone ⟨f, hf, hid⟩
    rw [(Refuses.unadvertised own second none).payload,
      (Refuses.unadvertised own' second (hformats ▸ none)).payload]
  have advertised' : version.Advertises m' := fun second => hformats ▸ advertised second
  rw [payload_own own advertised, payload_own own' advertised']
  exact Attachment.find_payload_congr hattachments

end Payload

end Version

namespace Message

section Read

variable {j : Json} {m : Message}

theorem ofJson_of_decode {text : String} (h : decode text = .ok m) :
    ∃ j, Json.parse? text = some j ∧ ofJson j = .ok m := by
  unfold decode at h
  split at h
  · cases h
  · next j hparsed => exact ⟨j, hparsed, h⟩

theorem json_within (h : ofJson j = .ok m) {a : Attachment} (ha : a ∈ m.body.attachments)
    {value : Json} (hvalue : a.json = some value) : value.Within j := by
  obtain ⟨part, hpart, hread⟩ := (ofJson_read h).2 a ha
  exact (Attachment.json_within hread hvalue).trans hpart

end Read

-- Where a payload is found, and why it is not: it is the text that the first attachment with the
-- fixed identifier carries, in the second family one that some entry advertises. Inline JSON is
-- read like the base64 of its text, and its objects are in order if those of what the message was
-- read from are.
theorem payload_located (m : Message) (kind : Kind) :
    (∀ text, Version.payload .v2 m kind = .ok text ↔
      (m.version = .v2 ∧ m.kind = kind) ∧ (∃ f ∈ m.body.formats, f.attachment = "indy") ∧
        ∃ a : Attachment, a.FirstIn m.body.attachments "indy" ∧ a.Carries text) ∧
    (∀ text, Version.payload .v1 m kind = .ok text ↔
      (m.version = .v1 ∧ m.kind = kind) ∧
        ∃ id, (kind, id) ∈ Version.fixedIds ∧
          ∃ a : Attachment, a.FirstIn m.body.attachments id ∧ a.Carries text) ∧
    (∀ (version : Version) (x : Error),
      version.payload m kind = .error x ↔ version.Refuses m kind x) ∧
    (∀ m' : Message, m'.version = m.version → m'.kind = m.kind → m'.body.formats = m.body.formats →
      List.Forall₂ (fun a b => b = a ∨ b = a.encoded) m.body.attachments m'.body.attachments →
      ∀ version : Version, version.payload m' kind = version.payload m kind) ∧
    ((∃ j : Json, j.Canonical ∧ ofJson j = .ok m) ∨ (∃ text, decode text = .ok m) →
      ∀ a ∈ m.body.attachments, ∀ json ∈ a.json, json.Canonical) := by
  refine ⟨fun text => ?second, fun text => ?first, fun version x => Version.payload_eq_error_iff,
    fun m' hversion hkind hformats hattachments version => ?inline, fun h a ha json hjson => ?ordered⟩
  case second =>
    rw [Version.payload_eq_ok_iff, Prod.mk.injEq]
    exact and_congr_right fun _ => and_congr_left fun _ => forall_prop_of_true rfl
  case first =>
    rw [Version.payload_eq_ok_iff, Prod.mk.injEq]
    refine and_congr_right fun own => ⟨?_, ?_⟩
    · rintro ⟨-, a, first, h⟩
      have hid := Version.mem_fixedIds own.1 first.mem
      rw [own.2] at hid
      exact ⟨_, hid, a, first, h⟩
    · rintro ⟨id, hid, a, first, h⟩
      rw [Version.attachmentId_of_mem hid] at first
      exact ⟨nofun, a, first, h⟩
  case inline =>
    refine Version.payload_congr hversion hkind hformats (hattachments.imp ?_)
    rintro a b (rfl | rfl)
    · exact ⟨rfl, rfl⟩
    · exact ⟨a.id_encoded, a.payload_encoded⟩
  case ordered =>
    obtain ⟨j, hcanonical, hread⟩ | ⟨text, hdecode⟩ := h
    · exact hcanonical.within (json_within hread ha hjson)
    · obtain ⟨j, hparsed, hread⟩ := ofJson_of_decode hdecode
      exact (Json.parse?_canonical hparsed).within (json_within hread ha hjson)

-- Of two attachments with the identifier the first one decides, though it holds inline JSON. The
-- first family refuses the request.
theorem payload_located_inline :
    let inline : Attachment := ⟨"indy", none, none, some (.arr [.bool true])⟩
    let m : Message := ⟨.opening "thread-1", .request2 ⟨none, none, none⟩ [⟨"indy", "hlindy"⟩]
      [.ofText "other" "", inline, .ofText "indy" "[]"]⟩
    Version.payload .v2 m .request = .ok "[true]" ∧
      Version.payload .v1 m .request =
        .error (.invalidMessage (.wrongMessage .v1 .request (typeUri .v2 .request))) := by
  intro inline m
  obtain ⟨hsecond, -, hrefused, -, -⟩ := payload_located m .request
  have first : inline.FirstIn m.body.attachments "indy" :=
    ⟨[.ofText "other" ""], [.ofText "indy" "[]"], rfl, rfl, by simp [Attachment.ofText]⟩
  exact ⟨(hsecond "[true]").2 ⟨⟨rfl, rfl⟩, ⟨_, List.mem_singleton_self _, rfl⟩, inline, first,
    .inline rfl rfl (by decide)⟩, (hrefused .v1 _).2 (.foreign (by decide))⟩

end Message

end CredentialIssuance
