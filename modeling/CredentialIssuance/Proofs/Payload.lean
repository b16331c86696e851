import CredentialIssuance.Message.Payload
import CredentialIssuance.Proofs.Structure

namespace CredentialIssuance

-- Of the members with the name there is one, and this is its value.
def Document.Once (members : List (String × Document)) (name : String) (value : Document) : Prop :=
  members.filter (·.1 = name) = [(name, value)]

-- The text is a JSON object with these members.
def Document.Written (text : String) (members : List (String × Document)) : Prop :=
  parse? text = some (.obj (members.map fun member => (some member.1, member.2)))

-- A payload that names its schema and its credential definition once each.
def OfferPayload.NamedIn (text : String) : Prop :=
  ∃ members, Document.Written text members ∧
    (∃ schema, Document.Once members "schema_id" (.str (some schema))) ∧
    ∃ definition, Document.Once members "cred_def_id" (.str (some definition))

-- A credential may name a revocation registry besides.
def CredentialPayload.NamedIn (text : String) : Prop :=
  ∃ members, Document.Written text members ∧
    (∃ schema, Document.Once members "schema_id" (.str (some schema))) ∧
    (∃ definition, Document.Once members "cred_def_id" (.str (some definition))) ∧
    ((∀ member ∈ members, member.1 ≠ "rev_reg_id") ∨ Document.Once members "rev_reg_id" .null ∨
      ∃ registry, Document.Once members "rev_reg_id" (.str (some registry)))

variable {members : List (String × Document)} {name text : String} {value : Document}

theorem Document.Once.countP (h : Once members name value) :
    members.countP (·.1 = name) = 1 := by
  rw [List.countP_eq_length_filter, h]
  rfl

theorem Document.Once.lookup (h : Once members name value) :
    Json.lookup name members = some value := by
  induction members with
  | nil => cases h
  | cons head rest ih =>
    obtain ⟨key, first⟩ := head
    by_cases hkey : key = name
    · simp only [Once, List.filter_cons, hkey, decide_true, if_true, List.cons.injEq] at h
      cases h.1
      simp [Json.lookup, hkey]
    · simp only [Once, List.filter_cons, hkey, decide_false] at h
      rw [Json.lookup, if_neg hkey]
      exact ih h

theorem Document.members?_written (names : List String)
    (h : ∀ name ∈ names, members.countP (·.1 = name) ≤ 1) :
    Document.members? names false
      (.obj (members.map fun member => (some member.1, member.2))) = some members := by
  have hmembers : (members.map fun member => (some member.1, member.2)).mapM
      (fun member : Option String × Document => member.1.map (·, member.2)) = some members :=
    Json.mapM_map_eq_some fun _ _ => rfl
  have hall : (names.all fun name => members.countP (·.1 = name) ≤ 1) = true := by
    simpa using h
  simp only [Document.members?, hmembers, Option.bind_eq_bind, Option.bind_some, hall, if_true]

theorem OfferPayload.NamedIn.ofText (h : NamedIn text) : ∃ terms, ofText text = .ok terms := by
  obtain ⟨members, hwritten, ⟨schema, hschema⟩, definition, hdefinition⟩ := h
  have hmembers := Document.members?_written ["schema_id", "cred_def_id"]
    (show ∀ name ∈ _, members.countP (·.1 = name) ≤ 1 by
      simp [hschema.countP, hdefinition.countP])
  have hread : (Document.parse? text).bind ofDocument? = some ⟨schema, definition⟩ := by
    rw [hwritten]
    simp [ofDocument?, hmembers, Document.required, hschema.lookup, hdefinition.lookup,
      Document.str?]
  exact ⟨⟨schema, definition⟩, by simp only [OfferPayload.ofText, hread]⟩

theorem CredentialPayload.NamedIn.ofText (h : NamedIn text) :
    ∃ credential, ofText text = .ok credential := by
  obtain ⟨members, hwritten, ⟨schema, hschema⟩, ⟨definition, hdefinition⟩, hregistry⟩ := h
  have hoptional : members.countP (·.1 = "rev_reg_id") ≤ 1 ∧
      ∃ registry, Document.optional Document.str? members "rev_reg_id" = some registry := by
    rcases hregistry with hnone | hnull | ⟨registry, hsome⟩
    · have hcount : members.countP (·.1 = "rev_reg_id") = 0 :=
        List.countP_eq_zero.2 fun member hmember => by simpa using hnone member hmember
      have hlookup : Json.lookup "rev_reg_id" members = none := by
        refine Json.lookup_eq_none fun hmem => ?_
        obtain ⟨member, hmember, hname⟩ := List.mem_map.1 hmem
        exact hnone member hmember hname
      exact ⟨by omega, none, by simp [Document.optional, hlookup]⟩
    · exact ⟨Nat.le_of_eq hnull.countP, none, by simp [Document.optional, hnull.lookup]⟩
    · exact ⟨Nat.le_of_eq hsome.countP, some registry,
        by simp [Document.optional, hsome.lookup, Document.str?]⟩
  obtain ⟨hcount, registry, hread⟩ := hoptional
  have hmembers := Document.members?_written ["schema_id", "cred_def_id", "rev_reg_id"]
    (show ∀ name ∈ _, members.countP (·.1 = name) ≤ 1 by
      simp [hschema.countP, hdefinition.countP, hcount])
  have hpayload : (Document.parse? text).bind ofDocument? =
      some ⟨schema, definition, registry⟩ := by
    rw [hwritten]
    simp [ofDocument?, hmembers, Document.required, hschema.lookup, hdefinition.lookup,
      Document.str?, hread]
  exact ⟨⟨schema, definition, registry⟩, by simp only [CredentialPayload.ofText, hpayload]⟩

end CredentialIssuance
