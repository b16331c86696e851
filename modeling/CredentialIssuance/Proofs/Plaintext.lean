import CredentialIssuance.Proofs.Text
import CredentialIssuance.Proofs.Wire

namespace CredentialIssuance

open Json

-- How deep the values of a message are nested, each kind of part within the next one.

theorem Attribute.legible (a : Attribute) : a.toJson.Legible 1 := .present (by simp)

theorem Preview.legible (p : Preview) : p.toJson.Legible 3 := by
  have hattributes : (Json.ofList Attribute.toJson p.attributes).Legible 2 :=
    .ofList fun a _ => a.legible
  exact .present (by simp [hattributes])

theorem Format.legible (f : Format) : f.toJson.Legible 1 := .present (by simp)

theorem Thread.legible (t : Thread) : t.toJson.Legible 1 := .present (by simp)

theorem Attachment.legible {a : Attachment} {depth : Nat} (h : ∀ j ∈ a.json, j.Legible depth) :
    a.toJson.Legible (depth + 2) := by
  have hdata : (Json.present [("base64", a.base64.map .str), ("json", a.json)]).Legible (depth + 1) :=
    .present (by simpa using h)
  exact .present (by simp [hdata])

-- Inline JSON that is not too deep, and has no numbers.
def Body.Legible (b : Body) (depth : Nat) : Prop := ∀ a ∈ b.attachments, ∀ j ∈ a.json, j.Legible depth

theorem Body.legible_members {b : Body} {depth : Nat} (h : b.Legible depth) :
    ∀ member ∈ b.members, ∀ value ∈ member.2, value.Legible (depth + 3) := by
  have hattachments : (Json.ofList Attachment.toJson b.attachments).Legible (depth + 3) :=
    .ofList fun a ha => Attachment.legible (h a ha)
  have hformats (formats : List Format) : (Json.ofList Format.toJson formats).Legible (depth + 3) :=
    .ofList fun f _ => f.legible.mono (by omega)
  have hpreview (p : Preview) : p.toJson.Legible (depth + 3) := p.legible.mono (by omega)
  have hdescription (code : String) (text : Option String) :
      (Json.present [("code", some (.str code)), ("en", text.map .str)]).Legible (depth + 3) :=
    .present (by simp)
  cases b <;>
    simp [attachments] at hattachments <;>
    simp [members, Notes.members, Terms.members, formatList, attachmentList, AckStatus.toJson, *]

theorem Message.legible {m : Message} {depth : Nat} (h : m.body.Legible depth) :
    m.toJson.Legible (depth + 4) := by
  have hthread (t : Thread) : t.toJson.Legible (depth + 3) := t.legible.mono (by omega)
  refine .present ?_
  simp only [List.forall_mem_cons]
  exact ⟨by simp, by simp, by simp [hthread], Body.legible_members h⟩

-- A message is read from its text as it was written.
theorem Message.decode_text {m : Message} (plain : m.Plain) (legible : m.body.Legible 123) :
    decode m.toJson.text = .ok m := by
  have hread : Json.parse? m.toJson.text = some m.toJson :=
    Json.parse?_text ((Message.legible legible).mono (by decide))
  simp only [decode, hread, ofJson_toJson plain]

end CredentialIssuance
