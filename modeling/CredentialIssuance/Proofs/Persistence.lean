import CredentialIssuance.Event
import CredentialIssuance.Proofs.Plaintext
import CredentialIssuance.Proofs.Time

namespace CredentialIssuance

open Json

-- A choice is read back from its name.

theorem State.choice?_wireName (state : State) :
    choice? wireNames (.str state.wireName) = some state := by
  cases state <;> rfl

theorem Role.choice?_name (role : Role) : choice? names (.str role.name) = some role := by
  cases role <;> rfl

theorem Version.choice?_name (version : Version) :
    choice? names (.str version.name) = some version := by
  cases version <;> rfl

theorem AutoAccept.choice?_name (policy : AutoAccept) :
    choice? names (.str policy.name) = some policy := by
  cases policy <;> rfl

@[simp] theorem State.nullable_wireName (state : Option State) :
    nullable (choice? wireNames) (state.map fun state => .str state.wireName) = some state :=
  nullable_map State.choice?_wireName fun _ => nofun

theorem AutoAccept.nullable_name (policy : Option AutoAccept) :
    nullable (choice? names) (policy.map fun policy => .str policy.name) = some policy :=
  nullable_map AutoAccept.choice?_name fun _ => nofun

theorem CredentialBinding.ofJson?_toJson (b : CredentialBinding) : ofJson? b.toJson = some b := by
  simp [ofJson?, toJson, required, lookup_fields, lookup]

theorem CredentialBinding.legible (b : CredentialBinding) : b.toJson.Legible 1 := .present (by simp)

namespace Exchange

theorem time?_timeJson (t : Timestamp) : time? (timeJson t) = some t := t.ofText?_text

theorem nullable_timeJson (t : Option Timestamp) :
    nullable time? (t.map timeJson) = some t :=
  nullable_map time?_timeJson fun _ => nofun

section Lists

variable {α : Type} {read : Json → Option α} {write : α → Json} {items : List α} {depth : Nat}

-- A list is read back whether it is written or, being empty, left out.
theorem list?_nonEmpty (reads : ∀ a ∈ items, read (write a) = some a) :
    (nonEmpty write items).elim (some []) (list? read) = some items := by
  cases items with
  | nil => rfl
  | cons a rest => exact list?_ofList reads

theorem legible_nonEmpty (h : ∀ a ∈ items, (write a).Legible depth) :
    ∀ value ∈ nonEmpty write items, value.Legible (depth + 1) := by
  intro value hvalue
  unfold nonEmpty at hvalue
  split at hvalue
  · cases hvalue
  · cases hvalue
    exact .ofList h

end Lists

-- The members a record is written with.
def members (e : Exchange) : List (String × Option Json) :=
  [("id", some (.str e.id)), ("connectionId", some (.str e.connectionId)),
    ("threadId", some (.str e.threadId)), ("parentThreadId", e.parentThreadId.map .str),
    ("state", some (.str e.state.wireName)), ("role", some (.str e.role.name)),
    ("protocolVersion", some (.str e.version.name)),
    ("autoAccept", e.autoAccept.map fun policy => .str policy.name),
    ("credentialAttributes", nonEmpty Attribute.toJson e.attributes),
    ("credentialDefinitionId", e.definition.map .str),
    ("requestMetadata", e.requestMetadata.map .str),
    ("credentials", nonEmpty CredentialBinding.toJson e.credentials),
    ("errorMessage", e.errorMessage.map .str), ("createdAt", some (timeJson e.createdAt)),
    ("updatedAt", e.updatedAt.map timeJson)]

theorem distinct_members (e : Exchange) : (e.members.map Prod.fst).Nodup :=
  show memberNames.Nodup by decide

-- A record is read from any value in which each of its members is found.
theorem ofJson?_found {e : Exchange} {j : Json} {ms : List (String × Json)}
    (hms : j.members? memberNames = some ms)
    (found : ∀ member ∈ e.members, lookup member.1 ms = member.2) : ofJson? j = some e := by
  have hattributes := list?_nonEmpty fun a (_ : a ∈ e.attributes) => a.ofJson?_toJson
  have hcredentials := list?_nonEmpty fun b (_ : b ∈ e.credentials) => b.ofJson?_toJson
  simp only [members, List.forall_mem_cons] at found
  obtain ⟨hid, hconnection, hthread, hparent, hstate, hrole, hversion, hpolicy, hlisted, hdefinition,
    hmetadata, hbound, herror, hcreated, hupdated, -⟩ := found
  refine Option.bind_eq_some_iff.2 ⟨_, hms, ?_⟩
  refine Option.bind_eq_some_iff.2 ⟨_, required_of_lookup hid rfl, ?_⟩
  refine Option.bind_eq_some_iff.2 ⟨_, required_of_lookup hconnection rfl, ?_⟩
  refine Option.bind_eq_some_iff.2 ⟨_, required_of_lookup hthread rfl, ?_⟩
  refine Option.bind_eq_some_iff.2 ⟨_, optional_of_lookup hparent (nullable_str _), ?_⟩
  refine Option.bind_eq_some_iff.2 ⟨_, required_of_lookup hstate (State.choice?_wireName _), ?_⟩
  refine Option.bind_eq_some_iff.2 ⟨_, required_of_lookup hrole (Role.choice?_name _), ?_⟩
  refine Option.bind_eq_some_iff.2 ⟨_, required_of_lookup hversion (Version.choice?_name _), ?_⟩
  refine Option.bind_eq_some_iff.2 ⟨_, optional_of_lookup hpolicy (AutoAccept.nullable_name _), ?_⟩
  refine Option.bind_eq_some_iff.2 ⟨_, defaulted_of_lookup hlisted hattributes, ?_⟩
  refine Option.bind_eq_some_iff.2 ⟨_, optional_of_lookup hdefinition (nullable_str _), ?_⟩
  refine Option.bind_eq_some_iff.2 ⟨_, optional_of_lookup hmetadata (nullable_str _), ?_⟩
  refine Option.bind_eq_some_iff.2 ⟨_, defaulted_of_lookup hbound hcredentials, ?_⟩
  refine Option.bind_eq_some_iff.2 ⟨_, optional_of_lookup herror (nullable_str _), ?_⟩
  refine Option.bind_eq_some_iff.2 ⟨_, required_of_lookup hcreated (time?_timeJson _), ?_⟩
  refine Option.bind_eq_some_iff.2 ⟨_, optional_of_lookup hupdated (nullable_timeJson _), ?_⟩
  rfl

theorem ofJson?_toJson (e : Exchange) : ofJson? e.toJson = some e :=
  ofJson?_found (members?_present memberNames e.members) fun _ hmember =>
    lookup_fields_of_mem e.distinct_members hmember

theorem legible (e : Exchange) : e.toJson.Legible 3 := by
  have hattributes : ∀ value, nonEmpty Attribute.toJson e.attributes = some value → value.Legible 2 :=
    legible_nonEmpty fun a _ => a.legible
  have hcredentials : ∀ value, nonEmpty CredentialBinding.toJson e.credentials = some value →
      value.Legible 2 :=
    legible_nonEmpty fun b _ => b.legible
  exact .present (by simpa [timeJson] using ⟨hattributes, hcredentials⟩)

end Exchange

namespace Event

theorem ofJson?_toJson (event : Event) : ofJson? event.toJson = some event := by
  simp [ofJson?, toJson, required, optional_eq, lookup_fields, lookup, Exchange.ofJson?_toJson]

theorem legible (event : Event) : event.toJson.Legible 4 :=
  .present (by simp [event.exchange.legible])

end Event

-- What is read from a value is read from its text.
theorem Json.read_text {α : Type} {read : Json → Option α} {j : Json} {a : α}
    (h : j.Legible maxDepth) (hread : read j = some a) : (parse? j.text).bind read = some a := by
  rw [Json.parse?_text h, Option.bind_some, hread]

-- Records and events are read as they were written. So a record that has been read, from whatever
-- value, is the same when it is written and read once more.
theorem Exchange.persistent :
    (∀ e : Exchange, ofJson? e.toJson = some e ∧ (Json.parse? e.toJson.text).bind ofJson? = some e) ∧
    (∀ event : Event, Event.ofJson? event.toJson = some event ∧
      (Json.parse? event.toJson.text).bind Event.ofJson? = some event) ∧
    ∀ (j : Json) (e : Exchange), ofJson? j = some e →
      ofJson? e.toJson = ofJson? j ∧ (Json.parse? e.toJson.text).bind ofJson? = ofJson? j := by
  have hrecord (e : Exchange) :
      ofJson? e.toJson = some e ∧ (Json.parse? e.toJson.text).bind ofJson? = some e :=
    ⟨e.ofJson?_toJson, Json.read_text (e.legible.mono (by decide)) e.ofJson?_toJson⟩
  have hevent (event : Event) : Event.ofJson? event.toJson = some event ∧
      (Json.parse? event.toJson.text).bind Event.ofJson? = some event :=
    ⟨event.ofJson?_toJson, Json.read_text (event.legible.mono (by decide)) event.ofJson?_toJson⟩
  refine ⟨hrecord, hevent, fun j e h => ?_⟩
  rw [h]
  exact hrecord e

-- A record that stands in another order, with a member of no meaning.
theorem Exchange.persistent_foreign :
    let t : Timestamp := ⟨2024, 2, 29, 23, 30, 60, 500000000, by decide, by decide⟩
    let e : Exchange :=
      { Exchange.new "e\n" .issuer .v2 .done "\"t\"" "é" t with errorMessage := some "" }
    let j := Json.object [("createdAt", timeJson t), ("errorMessage", .str ""),
      ("protocolVersion", .str "v2"), ("role", .str "Issuer"), ("revision", .bool true),
      ("state", .str "done"), ("threadId", .str "\"t\""), ("connectionId", .str "é"),
      ("id", .str "e\n")]
    ofJson? j = some e ∧ ofJson? e.toJson = ofJson? j ∧
      (Json.parse? e.toJson.text).bind ofJson? = ofJson? j := by
  intro t
  clear_value t
  intro e j
  have h : ofJson? j = some e := by
    have hmembers : j.members? memberNames = some (Json.ordered _) := rfl
    refine ofJson?_found hmembers ?_
    simp only [members, List.forall_mem_cons, Json.lookup_ordered]
    exact ⟨rfl, rfl, rfl, rfl, rfl, rfl, rfl, rfl, rfl, rfl, rfl, rfl, rfl, rfl, rfl, nofun⟩
  exact ⟨h, persistent.2.2 j e h⟩

end CredentialIssuance
