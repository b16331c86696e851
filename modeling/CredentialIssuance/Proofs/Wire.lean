import CredentialIssuance.Message.Wire
import CredentialIssuance.Proofs.Structure

namespace CredentialIssuance

open Json

-- Each structure is read back from its own members. `lookup_fields` finds them wherever the writer
-- has put them.

theorem Attribute.ofJson?_toJson (a : Attribute) : ofJson? a.toJson = some a := by
  simp [ofJson?, toJson, required, optional_eq, lookup_fields, lookup]

@[simp] theorem Preview.ofJson?_toJson (p : Preview) : ofJson? p.toJson = some p := by
  have hattributes := list?_ofList fun a (_ : a ∈ p.attributes) => a.ofJson?_toJson
  simp [ofJson?, toJson, required, lookup_fields, lookup, hattributes]

@[simp] theorem Preview.nullable_toJson (preview : Option Preview) :
    nullable ofJson? (preview.map toJson) = some preview :=
  nullable_map ofJson?_toJson fun _ => nofun

theorem Format.ofJson?_toJson (f : Format) : ofJson? f.toJson = some f := by
  simp [ofJson?, toJson, required, lookup_fields, lookup]

@[simp] theorem Format.list?_toJson (formats : List Format) :
    list? ofJson? (.ofList toJson formats) = some formats :=
  list?_ofList fun f _ => f.ofJson?_toJson

theorem Thread.ofJson?_toJson (t : Thread) : ofJson? t.toJson = some t := by
  simp [ofJson?, toJson, required, optional_eq, lookup_fields, lookup]

@[simp] theorem Thread.nullable_toJson (thread : Option Thread) :
    nullable ofJson? (thread.map toJson) = some thread :=
  nullable_map ofJson?_toJson fun _ => nofun

@[simp] theorem AckStatus.ofJson?_toJson (s : AckStatus) : ofJson? s.toJson = some s := by
  cases s <;> rfl

namespace Attachment

-- Whether the attachment is written as it will be read.
def Plain (a : Attachment) : Prop := a.json ≠ some .null

theorem ofJson?_toJson {a : Attachment} (h : a.Plain) : ofJson? a.toJson = some a := by
  have hjson : nullable some a.json = some a.json := nullable_some h
  simp [ofJson?, toJson, required, optional_eq, lookup_fields, lookup, hjson]

theorem ofJson?_plain {j : Json} {a : Attachment} (h : ofJson? j = some a) : a.Plain := by
  simp only [ofJson?, Option.bind_eq_bind, Option.bind_eq_some_iff, Option.pure_def,
    Option.some.injEq] at h
  obtain ⟨_, _, _, _, _, _, _, _, _, _, _, hjson, rfl⟩ := h
  rw [optional_eq] at hjson
  exact nullable_some_ne hjson

theorem ofText_plain (id text : String) : (ofText id text).Plain := nofun

end Attachment

namespace Body

-- All attachments of a message, with those that hold a proposal's filter.
def attachments : Body → List Attachment
  | .offer1 _ _ attachments | .request1 _ attachments | .issue1 _ attachments => attachments
  | .propose2 _ _ _ attachments | .offer2 _ _ _ _ attachments => attachments
  | .request2 _ _ attachments | .issue2 _ _ _ attachments => attachments
  | .propose1 .. | .ack .. | .problemReport .. => []

def Plain (b : Body) : Prop := ∀ a ∈ b.attachments, a.Plain

-- A body is read from any members among which each of its own is found.
theorem ofMembers?_members {body : Body} (plain : body.Plain) {ms : List (String × Json)}
    (found : ∀ member ∈ body.members, lookup member.1 ms = member.2) :
    ofMembers? body.version body.kind ms = some body := by
  have hattachments : attachments? (.ofList Attachment.toJson body.attachments) =
      some body.attachments :=
    list?_ofList fun a ha => Attachment.ofJson?_toJson (plain a ha)
  cases body <;>
    simp [members, Notes.members, Terms.members, formatList, attachmentList] at found <;>
    simp [attachments] at hattachments <;>
    simp [ofMembers?, version, kind, comment?, Notes.ofMembers?, Terms.ofMembers?, formats?,
      required, defaulted, optional_eq, lookup_fields, lookup, found, hattachments]

-- The members of a body have names of their own, which a message uses for nothing else.
theorem distinct_members (body : Body) :
    ("@type" :: "@id" :: "~thread" :: body.members.map Prod.fst).Nodup := by
  cases body <;>
    simp [members, Notes.members, Terms.members, formatList, attachmentList]

section Read

variable {ms : List (String × Json)} {name : String} {attachments : List Attachment}

-- Each of the attachments is read from a part of a member.
def ReadFrom (ms : List (String × Json)) (attachments : List Attachment) : Prop :=
  ∀ a ∈ attachments, ∃ name value, lookup name ms = some value ∧
    ∃ part : Json, part.Within value ∧ Attachment.ofJson? part = some a

theorem readFrom_nil (ms : List (String × Json)) : ReadFrom ms [] := List.forall_mem_nil _

theorem required_readFrom (h : required attachments? ms name = some attachments) :
    ReadFrom ms attachments := by
  intro a ha
  obtain ⟨value, hvalue, hread⟩ := Option.bind_eq_some_iff.1 h
  exact ⟨name, value, hvalue, of_mem_list? hread ha⟩

theorem defaulted_readFrom (h : defaulted attachments? [] ms name = some attachments) :
    ReadFrom ms attachments := by
  unfold defaulted at h
  split at h
  · cases h
    exact readFrom_nil ms
  · next value hvalue => exact fun a ha => ⟨name, value, hvalue, of_mem_list? h ha⟩

-- A body that has been read is of the family and kind it was read for.
theorem ofMembers?_eq_some {version : Version} {kind : Kind} {body : Body}
    (h : ofMembers? version kind ms = some body) :
    body.version = version ∧ body.kind = kind ∧ ReadFrom ms body.attachments := by
  cases version <;> cases kind <;>
    simp only [ofMembers?, Option.bind_eq_bind, Option.bind_eq_some_iff, Option.pure_def,
      Option.some.injEq] at h
  case v1.propose =>
    obtain ⟨_, -, _, -, _, -, rfl⟩ := h
    exact ⟨rfl, rfl, readFrom_nil ms⟩
  case v1.offer =>
    obtain ⟨_, -, _, -, _, hoffers, rfl⟩ := h
    exact ⟨rfl, rfl, required_readFrom hoffers⟩
  case v1.request | v1.issue =>
    obtain ⟨_, -, _, hattachments, rfl⟩ := h
    exact ⟨rfl, rfl, required_readFrom hattachments⟩
  case v2.propose =>
    obtain ⟨_, -, _, -, _, -, _, hfilters, rfl⟩ := h
    exact ⟨rfl, rfl, defaulted_readFrom hfilters⟩
  case v2.offer =>
    obtain ⟨_, -, _, -, _, -, _, -, _, hoffers, rfl⟩ := h
    exact ⟨rfl, rfl, defaulted_readFrom hoffers⟩
  case v2.request =>
    obtain ⟨_, -, _, -, _, hrequests, rfl⟩ := h
    exact ⟨rfl, rfl, defaulted_readFrom hrequests⟩
  case v2.issue =>
    obtain ⟨_, -, _, -, _, -, _, hcredentials, rfl⟩ := h
    exact ⟨rfl, rfl, defaulted_readFrom hcredentials⟩
  case v1.ack | v2.ack =>
    obtain ⟨_, -, rfl⟩ := h
    exact ⟨rfl, rfl, readFrom_nil ms⟩
  case v1.problemReport | v2.problemReport =>
    obtain ⟨_, -, _, -, _, -, rfl⟩ := h
    exact ⟨rfl, rfl, readFrom_nil ms⟩

end Read

end Body

@[simp] theorem typeOf?_typeUri (version : Version) (kind : Kind) :
    typeOf? (typeUri version kind) = some (version, kind) := by
  cases version <;> cases kind <;> decide

theorem typeUri_of_typeOf? {type : String} {version : Version} {kind : Kind}
    (h : typeOf? type = some (version, kind)) : typeUri version kind = type := by
  unfold typeOf? at h
  simpa using List.find?_some h

theorem typeOf?_eq_none_iff {type : String} :
    typeOf? type = none ↔ ∀ version kind, typeUri version kind ≠ type := by
  constructor
  · rintro h version kind rfl
    simp at h
  · intro h
    cases hrouted : typeOf? type with
    | none => rfl
    | some route => exact absurd (typeUri_of_typeOf? hrouted) (h route.1 route.2)

-- Different kinds have different types.
theorem typeUri_inj {version version' : Version} {kind kind' : Kind}
    (h : typeUri version kind = typeUri version' kind') : version = version' ∧ kind = kind' := by
  have hrouted := typeOf?_typeUri version kind
  rw [h, typeOf?_typeUri] at hrouted
  cases hrouted
  exact ⟨rfl, rfl⟩

namespace Message

def Plain (m : Message) : Prop := m.body.Plain

-- The members a message is written with.
def members (m : Message) : List (String × Option Json) :=
  ("@type", some (.str m.type)) :: ("@id", some (.str m.header.id)) ::
    ("~thread", m.header.thread.map Thread.toJson) :: m.body.members

theorem lookup_members (m : Message) {member : String × Option Json} (h : member ∈ m.members) :
    lookup member.1 (fields m.members) = member.2 := by
  have distinct : (m.members.map Prod.fst).Nodup := m.body.distinct_members
  exact lookup_fields_of_mem distinct h

theorem type_toJson (m : Message) : (m.toJson.get? "@type").bind str? = some m.type := by
  have htype := m.lookup_members (List.mem_cons_self ..)
  show (lookup "@type" (fields m.members)).bind str? = some m.type
  rw [htype]
  rfl

theorem ofMembers?_members {m : Message} (plain : m.Plain) :
    ofMembers? m.version m.kind (fields m.members) = some m := by
  have hid := m.lookup_members (.tail _ (.head _))
  have hthread := m.lookup_members (.tail _ (.tail _ (.head _)))
  have hbody : Body.ofMembers? m.version m.kind (fields m.members) = some m.body :=
    Body.ofMembers?_members plain fun member hmember =>
      m.lookup_members (.tail _ (.tail _ (.tail _ hmember)))
  simp [ofMembers?, required, optional_eq, hid, hthread, hbody]

-- A message that can be written is read as it was written.
theorem ofJson_toJson {m : Message} (plain : m.Plain) : ofJson m.toJson = .ok m := by
  have hmembers : (m.toJson.members? []).bind (ofMembers? m.version m.kind) = some m :=
    ofMembers?_members plain
  simp only [ofJson, type_toJson, type, typeOf?_typeUri, hmembers]

-- A message that has been read is of the type that the value names, and its attachments are parts
-- of the value.
theorem ofJson_read {j : Json} {m : Message} (h : ofJson j = .ok m) :
    (j.get? "@type").bind str? = some m.type ∧
      ∀ a ∈ m.body.attachments, ∃ part : Json, part.Within j ∧ Attachment.ofJson? part = some a := by
  unfold ofJson at h
  split at h
  · cases h
  · next type htype =>
    split at h
    · cases h
    · next version kind hrouted =>
      split at h
      · cases h
      · next message hread =>
        cases h
        obtain ⟨ms, hmembers, hread⟩ := Option.bind_eq_some_iff.1 hread
        simp only [ofMembers?, Option.bind_eq_bind, Option.bind_eq_some_iff, Option.pure_def,
          Option.some.injEq] at hread
        obtain ⟨_, -, _, -, body, hbody, rfl⟩ := hread
        obtain ⟨rfl, rfl, hattachments⟩ := Body.ofMembers?_eq_some hbody
        refine ⟨htype.trans (congrArg some (typeUri_of_typeOf? hrouted).symm), fun a ha => ?_⟩
        obtain ⟨name, value, hvalue, part, hpart, hattachment⟩ := hattachments a ha
        exact ⟨part, hpart.trans (within_of_lookup hmembers hvalue), hattachment⟩

-- It can be written again.
theorem ofJson_eq_ok {j : Json} {m : Message} (h : ofJson j = .ok m) :
    (j.get? "@type").bind str? = some m.type ∧ m.Plain := by
  obtain ⟨htype, hattachments⟩ := ofJson_read h
  refine ⟨htype, fun a ha => ?_⟩
  obtain ⟨part, -, hread⟩ := hattachments a ha
  exact Attachment.ofJson?_plain hread

theorem decode_plain {text : String} {m : Message} (h : decode text = .ok m) : m.Plain := by
  unfold decode at h
  split at h
  · cases h
  · exact (ofJson_eq_ok h).2

-- The type a value names, if it names one.
theorem named_iff {j : Json} {type : String} :
    (j.get? "@type").bind str? = some type ↔ j.get? "@type" = some (.str type) := by
  rw [Option.bind_eq_some_iff]
  constructor
  · rintro ⟨value, hvalue, htype⟩
    cases value <;> simp [str?] at htype
    rw [hvalue, htype]
  · intro h
    exact ⟨_, h, rfl⟩

theorem ofJson_unroutable {j : Json} {type : String} (named : j.get? "@type" = some (.str type))
    (foreign : typeOf? type = none) : ofJson j = .error (.unroutable type) := by
  have hnamed := named_iff.2 named
  simp only [ofJson, hnamed, foreign]

-- Whatever is refused and names no foreign type is no message.
theorem ofJson_eq_error {j : Json} {x : Error} (h : ofJson j = .error x)
    (own : ∀ type, j.get? "@type" = some (.str type) → typeOf? type ≠ none) :
    ∃ fault, x = .invalidMessage fault := by
  unfold ofJson at h
  split at h
  · cases h
    exact ⟨_, rfl⟩
  · next type htype =>
    split at h
    · next hforeign => exact absurd hforeign (own type (named_iff.1 htype))
    · split at h
      · cases h
        exact ⟨_, rfl⟩
      · cases h

-- A message is read as it was written exactly when it holds no inline null, what has been read can
-- be written and read again, and a value that is refused either names a foreign type or is no
-- message.
theorem wire_faithful :
    (∀ m : Message, (ofJson m.toJson = .ok m ↔ m.Plain) ∧
      m.toJson.get? "@type" = some (.str m.type) ∧
      m.toJson.get? "@type" = some (.str (typeUri m.version m.kind))) ∧
    (∀ (j : Json) (m : Message), ofJson j = .ok m →
      j.get? "@type" = some (.str m.type) ∧ m.Plain ∧ ofJson m.toJson = .ok m) ∧
    (∀ (j : Json) (type : String), j.get? "@type" = some (.str type) →
      (∀ version kind, typeUri version kind ≠ type) → ofJson j = .error (.unroutable type)) ∧
    (∀ (j : Json) (x : Error), ofJson j = .error x →
      (∀ type, j.get? "@type" = some (.str type) → ∃ version kind, typeUri version kind = type) →
      ∃ fault, x = .invalidMessage fault) := by
  refine ⟨fun m => ?written, fun j m h => ?read, fun j type named foreign => ?foreign,
    fun j x h own => ?refused⟩
  case written =>
    have htype := named_iff.1 m.type_toJson
    exact ⟨⟨fun h => (ofJson_eq_ok h).2, ofJson_toJson⟩, htype, htype⟩
  case read =>
    obtain ⟨htype, plain⟩ := ofJson_eq_ok h
    exact ⟨named_iff.1 htype, plain, ofJson_toJson plain⟩
  case foreign =>
    exact ofJson_unroutable named (typeOf?_eq_none_iff.2 foreign)
  case refused =>
    refine ofJson_eq_error h fun type named foreign => ?_
    obtain ⟨version, kind, htype⟩ := own type named
    exact typeOf?_eq_none_iff.1 foreign version kind htype

-- An offer of the first family is read as it was written, and a ping is not for this protocol.
theorem wire_faithful_offer :
    let offer : Message :=
      ⟨⟨"message-1", some ⟨"thread-1", none⟩⟩,
        .offer1 (some "for you") ⟨Version.v1.previewType, [⟨"name", none, "Alice"⟩]⟩
          [.ofText "offer-0" "{}"]⟩
    let ping := Json.obj [("@type", .str "https://didcomm.org/trust_ping/1.0/ping")]
    ofJson offer.toJson = .ok offer ∧
      ofJson ping = .error (.unroutable "https://didcomm.org/trust_ping/1.0/ping") ∧
      ∃ fault, ofJson .null = .error (.invalidMessage fault) := by
  refine ⟨(wire_faithful.1 _).1.2 ?_, wire_faithful.2.2.1 _ _ rfl ?_, ?_⟩
  · intro a ha
    cases List.mem_singleton.1 ha
    exact Attachment.ofText_plain _ _
  · rintro (_ | _) (_ | _ | _ | _ | _ | _) <;> decide
  · obtain ⟨fault, hfault⟩ := wire_faithful.2.2.2 .null _ rfl nofun
    exact ⟨fault, hfault ▸ rfl⟩

end Message

end CredentialIssuance
