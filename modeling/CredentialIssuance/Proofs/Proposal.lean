import CredentialIssuance.Proofs.Family
import CredentialIssuance.Proofs.Text

namespace CredentialIssuance

namespace Terms

theorem legible (t : Terms) : (Json.present t.members).Legible 1 :=
  .present (by simp [members])

theorem definition_of_filter?_eq_none {t : Terms} (h : t.filter? = none) : t.definition = none := by
  unfold filter? at h
  split_ifs at h with hnone
  have hdefinition := List.all_eq_true.1 hnone _ (List.mem_cons_self ..)
  simpa using hdefinition

-- The definition is read in the filter that names it.
theorem definition_of_filter?_eq_some {t : Terms} {filter : String} (h : t.filter? = some filter) :
    ∃ j, Json.parse? filter = some j ∧ (j.get? "cred_def_id").bind Json.str? = t.definition := by
  unfold filter? at h
  split_ifs at h
  cases h
  refine ⟨.present t.members, Json.parse?_text (t.legible.mono (by decide)), ?_⟩
  have hlookup : Json.lookup "cred_def_id" (Json.fields t.members) = t.definition.map .str :=
    Json.lookup_fields (by simp [members]) "cred_def_id"
  show (Json.lookup "cred_def_id" (Json.fields t.members)).bind Json.str? = t.definition
  rw [hlookup]
  cases t.definition <;> rfl

end Terms

namespace Version

variable (version : Version) (header : Header) (p : Proposal)

-- A proposal names the definition that it was built with.
theorem proposedDefinition_propose :
    version.proposedDefinition (version.propose header p) = .ok p.terms.definition := by
  cases version with
  | v1 => rfl
  | v2 =>
    unfold propose
    cases hfilter : p.terms.filter? with
    | none =>
      rw [Terms.definition_of_filter?_eq_none hfilter]
      rfl
    | some filter =>
      obtain ⟨j, hparse, hdefinition⟩ := Terms.definition_of_filter?_eq_some hfilter
      -- The filter is advertised under the identifier it is attached with.
      have hadvertised : (formatsFor .propose).any
          (fun f => f.attachment = attachmentId .v2 .propose) = true := rfl
      simp only [proposedDefinition, hadvertised, ↓reduceIte, find_attach,
        Attachment.payload_ofText, bind, Except.bind, hparse, hdefinition]

-- It lists the attributes that it was built with, and has no list if there are none.
theorem preview_propose :
    version.preview (version.propose header p) =
      if p.attributes = [] then none else some p.attributes := by
  cases version with
  | v1 =>
    simp only [preview, propose]
    split <;> rfl
  | v2 =>
    simp only [propose]
    split <;> simp only [preview] <;> split <;> rfl

theorem attributes_propose :
    version.attributes (version.propose header p) = p.attributes := by
  rw [attributes, preview_propose]
  split
  · next hnone => exact hnone.symm
  · rfl

end Version

end CredentialIssuance
