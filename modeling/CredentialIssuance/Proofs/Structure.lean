import CredentialIssuance.Json.Structure
import Mathlib.Data.List.Nodup

namespace CredentialIssuance.Json

variable {α : Type}

-- The members of the object that `present` builds.
def fields (members : List (String × Option Json)) : List (String × Json) :=
  ordered (members.filterMap fun (name, value) => value.map (name, ·))

@[simp] theorem members?_present (names : List String) (members : List (String × Option Json)) :
    (present members).members? names = some (fields members) := rfl

theorem lookup_eq_none {members : List (String × α)} {name : String}
    (h : name ∉ members.map Prod.fst) : lookup name members = none := by
  induction members with
  | nil => rfl
  | cons member rest ih =>
    obtain ⟨hne, habsent⟩ := not_or.1 (List.mem_cons.not.1 h)
    rw [lookup, if_neg (Ne.symm hne), ih habsent]

theorem lookup_of_mem {members : List (String × α)} (distinct : (members.map Prod.fst).Nodup)
    {name : String} {value : α} (h : (name, value) ∈ members) : lookup name members = some value := by
  induction members with
  | nil => cases h
  | cons member rest ih =>
    obtain ⟨habsent, distinct⟩ := List.nodup_cons.1 distinct
    rcases List.mem_cons.1 h with rfl | hmem
    · rw [lookup, if_pos rfl]
    · have hne : member.1 ≠ name := fun hsame => habsent (hsame ▸ List.mem_map_of_mem hmem)
      rw [lookup, if_neg hne, ih distinct hmem]

theorem mem_of_lookup {members : List (String × α)} {name : String} {value : α}
    (h : lookup name members = some value) : (name, value) ∈ members := by
  induction members with
  | nil => cases h
  | cons member rest ih =>
    unfold lookup at h
    split at h
    · next hname =>
      cases h
      exact hname ▸ List.mem_cons_self
    · exact List.mem_cons_of_mem member (ih h)

-- The names of the members that are present are among those of all members.
theorem names_filterMap (members : List (String × Option Json)) :
    ((members.filterMap fun (name, value) => value.map (name, ·)).map Prod.fst).Sublist
      (members.map Prod.fst) := by
  induction members with
  | nil => exact .slnil
  | cons member rest ih =>
    obtain ⟨name, value⟩ := member
    cases value with
    | none => exact ih.cons name
    | some value => exact ih.cons_cons name

-- If no name comes twice, a member is found under its name if it is present.
theorem lookup_fields {members : List (String × Option Json)}
    (distinct : (members.map Prod.fst).Nodup) (name : String) :
    lookup name (fields members) = (lookup name members).join := by
  have hdistinct := distinct.sublist (names_filterMap members)
  rw [fields, lookup_ordered]
  by_cases hname : name ∈ members.map Prod.fst
  · obtain ⟨⟨_, value⟩, hmem, rfl⟩ := List.mem_map.1 hname
    rw [lookup_of_mem distinct hmem]
    cases value with
    | none =>
      refine lookup_eq_none fun hpresent => ?_
      simp only [List.map_reverse, List.mem_reverse, List.mem_map, List.mem_filterMap] at hpresent
      obtain ⟨⟨_, found⟩, ⟨⟨other, value⟩, hother, hfound⟩, rfl⟩ := hpresent
      obtain ⟨value, rfl, hpair⟩ := Option.map_eq_some_iff.1 hfound
      cases hpair
      cases List.inj_on_of_nodup_map distinct hother hmem rfl
    | some value =>
      refine lookup_of_mem ?_ (List.mem_reverse.2 (List.mem_filterMap.2 ⟨_, hmem, rfl⟩))
      rw [List.map_reverse]
      exact List.nodup_reverse.2 hdistinct
  · rw [lookup_eq_none hname]
    refine lookup_eq_none ?_
    rw [List.map_reverse, List.mem_reverse]
    exact fun hpresent => hname ((names_filterMap members).subset hpresent)

theorem lookup_fields_of_mem {members : List (String × Option Json)}
    (distinct : (members.map Prod.fst).Nodup) {member : String × Option Json} (h : member ∈ members) :
    lookup member.1 (fields members) = member.2 := by
  rw [lookup_fields distinct, lookup_of_mem distinct h]
  rfl

-- What `optional` makes of the value it finds.
def nullable (read : Json → Option α) : Option Json → Option (Option α)
  | none | some .null => some none
  | some value => (read value).map some

theorem optional_eq (read : Json → Option α) (members : List (String × Json)) (name : String) :
    optional read members name = nullable read (lookup name members) := by
  unfold optional nullable
  split <;> simp_all

theorem nullable_ne_null {read : Json → Option α} {value : Json} (h : value ≠ .null) :
    nullable read (some value) = (read value).map some := by
  unfold nullable
  split
  · next hnone => cases hnone
  · next hnull => exact absurd (Option.some.inj hnull) h
  · next hvalue => rw [Option.some.inj hvalue]

-- A reader that reads back what a writer writes, reads it back where it may be missing.
theorem nullable_map {read : Json → Option α} {write : α → Json} {value : Option α}
    (reads : ∀ a, read (write a) = some a) (written : ∀ a, write a ≠ .null) :
    nullable read (value.map write) = some value := by
  cases value with
  | none => rfl
  | some a => rw [Option.map_some, nullable_ne_null (written a), reads]; rfl

@[simp] theorem nullable_str (value : Option String) :
    nullable str? (value.map .str) = some value :=
  nullable_map (fun _ => rfl) (fun _ => nofun)

-- A value that is taken as it is must not be null.
theorem nullable_some {value : Option Json} (h : value ≠ some .null) :
    nullable some value = some value := by
  cases value with
  | none => rfl
  | some value => exact nullable_ne_null fun hnull => h (congrArg some hnull)

-- What a reader makes of a member that it finds.

section Found

variable {read : Json → Option α} {ms : List (String × Json)} {name : String}

theorem required_of_lookup {value : Json} {a : α} (h : lookup name ms = some value)
    (hread : read value = some a) : required read ms name = some a := by
  rw [required, h, Option.bind_some, hread]

theorem optional_of_lookup {value : Option Json} {a : Option α} (h : lookup name ms = value)
    (hread : nullable read value = some a) : optional read ms name = some a := by
  rw [optional_eq, h, hread]

theorem defaulted_of_lookup {value : Option Json} {default a : α} (h : lookup name ms = value)
    (hread : value.elim (some default) read = some a) : defaulted read default ms name = some a := by
  rw [defaulted, h]
  cases value <;> exact hread

end Found

-- What is not a null has been read as it was.
theorem nullable_some_ne {value read : Option Json} (h : nullable some value = some read) :
    read ≠ some .null := by
  unfold nullable at h
  split at h
  · cases h
    exact nofun
  · cases h
    exact nofun
  · next hnull =>
    cases h
    exact fun hsame => hnull (Option.some.inj hsame)

theorem of_nullable_some {value : Option Json} {j : Json} (h : nullable some value = some (some j)) :
    value = some j := by
  unfold nullable at h
  split at h
  · cases h
  · cases h
  · cases h
    rfl

@[simp] theorem str?_str (s : String) : (Json.str s).str? = some s := rfl

theorem mapM_map_eq_some {β : Type} {read : β → Option α} {write : α → β} {items : List α}
    (reads : ∀ a ∈ items, read (write a) = some a) : (items.map write).mapM read = some items := by
  induction items with
  | nil => rfl
  | cons a rest ih =>
    have hrest := ih fun b hb => reads b (List.mem_cons_of_mem a hb)
    rw [List.map_cons, List.mapM_cons, reads a List.mem_cons_self, hrest]
    rfl

theorem list?_ofList {read : Json → Option α} {write : α → Json} {items : List α}
    (reads : ∀ a ∈ items, read (write a) = some a) :
    list? read (ofList write items) = some items :=
  mapM_map_eq_some reads

-- What is read as a list has been read item by item.
theorem of_mem_mapM {β : Type} {read : β → Option α} {values : List β} {items : List α}
    (h : values.mapM read = some items) {a : α} (ha : a ∈ items) :
    ∃ value ∈ values, read value = some a := by
  induction values generalizing items with
  | nil =>
    cases h
    cases ha
  | cons value rest ih =>
    rw [List.mapM_cons] at h
    obtain ⟨first, hfirst, h⟩ := Option.bind_eq_some_iff.1 h
    obtain ⟨later, hlater, h⟩ := Option.bind_eq_some_iff.1 h
    cases h
    rcases List.mem_cons.1 ha with rfl | hmem
    · exact ⟨value, List.mem_cons_self, hfirst⟩
    · obtain ⟨other, hother, hread⟩ := ih hlater hmem
      exact ⟨other, List.mem_cons_of_mem value hother, hread⟩

-- The value stands somewhere in the other one.
inductive Within (part : Json) : Json → Prop
  | self : Within part part
  | item {items : List Json} {item : Json} (hmem : item ∈ items) (h : Within part item) :
      Within part (.arr items)
  | member {members : List (String × Json)} {member : String × Json} (hmem : member ∈ members)
      (h : Within part member.2) : Within part (.obj members)

theorem Within.trans {part middle whole : Json} (h : part.Within middle) (h' : middle.Within whole) :
    part.Within whole := by
  induction h' with
  | self => exact h
  | item hmem _ ih => exact .item hmem ih
  | member hmem _ ih => exact .member hmem ih

theorem of_mem_list? {read : Json → Option α} {j : Json} {items : List α}
    (h : list? read j = some items) {a : α} (ha : a ∈ items) :
    ∃ part : Json, part.Within j ∧ read part = some a := by
  unfold list? at h
  split at h
  · obtain ⟨part, hpart, hread⟩ := of_mem_mapM h ha
    exact ⟨part, .item hpart .self, hread⟩
  · cases h

-- Whatever is found in a structure stands in the value that it is read from.
theorem within_of_lookup {names : List String} {j value : Json} {ms : List (String × Json)}
    {name : String} (hmembers : j.members? names = some ms) (hlookup : lookup name ms = some value) :
    value.Within j := by
  have hvalue := mem_of_lookup hlookup
  unfold members? at hmembers
  split at hmembers
  · cases hmembers
    exact .member hvalue .self
  · obtain ⟨-, ⟨⟩⟩ := Option.ite_none_right_eq_some.1 hmembers
    exact .item (List.of_mem_zip hvalue).2 .self
  · cases hmembers

end CredentialIssuance.Json
