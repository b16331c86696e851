import CredentialIssuance.Json.Printer
import CredentialIssuance.Json.Reader
import CredentialIssuance.Proofs.Structure
import Mathlib.Data.List.Induction

namespace CredentialIssuance

namespace Json

theorem quoted_append (s : String) (rest : List Char) :
    quoted s ++ rest = '"' :: (s.toList.flatMap escape ++ '"' :: rest) := by
  simp [quoted]

section Ordered

variable {α : Type} {name : String} {value : α} {members : List (String × α)} {member : String × α}

theorem insert_of_lt (h : ∀ key ∈ members.map Prod.fst, key < name) :
    insert name value members = members ++ [(name, value)] := by
  induction members with
  | nil => rfl
  | cons member rest ih =>
    have hlt : member.1 < name := h _ (List.mem_cons_self ..)
    rw [insert, if_neg (String.ne_of_lt hlt).symm, if_neg (String.lt_asymm hlt),
      ih fun key hkey => h key (List.mem_cons_of_mem _ hkey)]
    rfl

-- What is in order stays as it is.
theorem ordered_of_sorted (h : Sorted members) : ordered members = members := by
  induction members using List.reverseRecOn with
  | nil => rfl
  | append_singleton members member ih =>
    rw [Sorted, List.map_append, List.pairwise_append] at h
    obtain ⟨hsorted, -, hlast⟩ := h
    rw [ordered, List.foldl_append, ← ordered, ih hsorted]
    exact insert_of_lt fun key hkey => hlast key hkey _ (List.mem_singleton_self _)

theorem mem_of_mem_insert (h : member ∈ insert name value members) :
    member = (name, value) ∨ member ∈ members := by
  induction members with
  | nil => exact .inl (List.mem_singleton.1 h)
  | cons first rest ih =>
    unfold insert at h
    split_ifs at h
    · exact (List.mem_cons.1 h).imp_right (List.mem_cons_of_mem _)
    · exact List.mem_cons.1 h
    · rcases List.mem_cons.1 h with rfl | hrest
      · exact .inr (List.mem_cons_self ..)
      · exact (ih hrest).imp_right (List.mem_cons_of_mem _)

theorem mem_of_mem_ordered (h : member ∈ ordered members) : member ∈ members := by
  induction members using List.reverseRecOn with
  | nil => exact h
  | append_singleton members last ih =>
    rw [ordered, List.foldl_append, ← ordered] at h
    rcases mem_of_mem_insert h with rfl | hmem
    · exact List.mem_append_right _ (List.mem_singleton_self _)
    · exact List.mem_append_left _ (ih hmem)

end Ordered

-- A value without numbers whose objects are in order, with so many lists and objects within one
-- another at most.
inductive Legible : Nat → Json → Prop where
  | null {depth : Nat} : Legible depth .null
  | bool {depth : Nat} (b : Bool) : Legible depth (.bool b)
  | str {depth : Nat} (s : String) : Legible depth (.str s)
  | arr {depth : Nat} {items : List Json} (legible : ∀ item ∈ items, Legible depth item) :
      Legible (depth + 1) (.arr items)
  | obj {depth : Nat} {members : List (String × Json)} (sorted : Sorted members)
      (legible : ∀ member ∈ members, Legible depth member.2) : Legible (depth + 1) (.obj members)

theorem Legible.mono {j : Json} {depth more : Nat} (h : Legible depth j) (le : depth ≤ more) :
    Legible more j := by
  induction h generalizing more with
  | null => exact .null
  | bool b => exact .bool b
  | str s => exact .str s
  | arr _ ih =>
    obtain ⟨more, rfl⟩ := Nat.exists_eq_add_of_lt le
    exact .arr fun item hitem => ih item hitem (by omega)
  | obj sorted _ ih =>
    obtain ⟨more, rfl⟩ := Nat.exists_eq_add_of_lt le
    exact .obj sorted fun member hmember => ih member hmember (by omega)

end Json

namespace Document

-- A control character without a letter of its own is written with the digits of its code.
theorem hexUnit?_hexDigit : ∀ n < 0x20,
    hexUnit? '0' '0' (Json.hexDigit (n / 16)) (Json.hexDigit (n % 16)) = some n := by decide

section Pieces

variable {c letter : Char} {cs rest after : List Char} {ps : List Piece}

-- A character that needs no escape is taken as it is.
theorem pieces?_plain (hquote : c ≠ '"') (hslash : c ≠ '\\') (hcontrol : ¬c.toNat < 0x20)
    (hrest : pieces? rest = some (ps, after)) :
    pieces? (c :: rest) = some (.char c :: ps, after) := by
  rw [pieces?.eq_def]
  split
  · next h => exact absurd (List.cons.inj h).1 hquote
  · next h => exact absurd (List.cons.inj h).1 hslash
  · next h => exact absurd (List.cons.inj h).1 hslash
  · next h =>
    cases h
    rw [if_neg hcontrol, hrest]
    rfl
  · next h => cases h

theorem pieces?_letter (hcode : letter ≠ 'u') (hletter : escaped? letter = some c)
    (hrest : pieces? rest = some (ps, after)) :
    pieces? ('\\' :: letter :: rest) = some (.char c :: ps, after) := by
  rw [pieces?, hletter, hrest]
  · rfl
  · rintro _ _ _ _ _ rfl
    exact absurd rfl hcode

theorem join?_char (hjoin : join? ps = some cs) : join? (.char c :: ps) = some (c :: cs) := by
  rw [join?, hjoin]
  rfl

-- Whatever an escaped character is read as, it stands for the character.
theorem pieces?_escape (c : Char) (hrest : pieces? rest = some (ps, after))
    (hjoin : join? ps = some cs) :
    ∃ ps', pieces? (Json.escape c ++ rest) = some (ps', after) ∧ join? ps' = some (c :: cs) := by
  have hletter : ∀ letter c, letter ≠ 'u' → escaped? letter = some c →
      ∃ ps', pieces? (['\\', letter] ++ rest) = some (ps', after) ∧ join? ps' = some (c :: cs) :=
    fun _ _ hcode h => ⟨_, pieces?_letter hcode h hrest, join?_char hjoin⟩
  unfold Json.escape
  split_ifs with hquote hslash hb ht hn hf hr hcontrol
  · exact hquote ▸ hletter '"' '"' (by decide) rfl
  · exact hslash ▸ hletter '\\' '\\' (by decide) rfl
  · exact hb ▸ hletter 'b' '\x08' (by decide) rfl
  · exact ht ▸ hletter 't' '\t' (by decide) rfl
  · exact hn ▸ hletter 'n' '\n' (by decide) rfl
  · exact hf ▸ hletter 'f' '\x0c' (by decide) rfl
  · exact hr ▸ hletter 'r' '\r' (by decide) rfl
  · refine ⟨.unit c.toNat :: ps, ?_, ?_⟩
    · simp [pieces?, hexUnit?_hexDigit _ hcontrol, hrest]
    · have hlow : c.toNat < 0xd800 := by omega
      rw [join?.eq_def]
      simp [hlow, hjoin]
  · exact ⟨_, pieces?_plain hquote hslash hcontrol hrest, join?_char hjoin⟩

-- A quoted string is read back, and what follows it is left over.
theorem string?_quoted (s : String) (rest : List Char) :
    string? (s.toList.flatMap Json.escape ++ '"' :: rest) = some (some s, rest) := by
  have hpieces : ∀ cs : List Char, ∃ ps,
      pieces? (cs.flatMap Json.escape ++ '"' :: rest) = some (ps, rest) ∧ join? ps = some cs := by
    intro cs
    induction cs with
    | nil => exact ⟨[], rfl, rfl⟩
    | cons c cs ih =>
      obtain ⟨ps, hread, hjoin⟩ := ih
      rw [List.flatMap_cons, List.append_assoc]
      exact pieces?_escape c hread hjoin
  obtain ⟨ps, hread, hjoin⟩ := hpieces s.toList
  simp only [string?, hread, hjoin, Option.map_some, String.ofList_toList]

end Pieces

mutual
-- The document that the text of a value is read as.
def ofJson : Json → Document
  | .null => .null
  | .bool b => .bool b
  | .num n => .num (some n)
  | .str s => .str (some s)
  | .arr items => .arr (ofItems items)
  | .obj members => .obj (ofMembers members)

def ofItems : List Json → List Document
  | [] => []
  | item :: rest => ofJson item :: ofItems rest

def ofMembers : List (String × Json) → List (Option String × Document)
  | [] => []
  | (name, value) :: rest => (some name, ofJson value) :: ofMembers rest
end

-- Nothing is skipped in front of a character that is not blank.
theorem skip_cons {c : Char} (h : blank c = false) (rest : List Char) :
    skip (c :: rest) = c :: rest := by
  rw [skip, List.dropWhile_cons_of_neg (by simp [h])]

theorem value?_quoted (fuel : Nat) (s : String) (rest : List Char) :
    value? (fuel + 1) (Json.quoted s ++ rest) = some (.str (some s), rest) := by
  rw [Json.quoted_append, value?, skip_cons rfl]
  simp only [string?_quoted, Option.map_some]

-- The text of the value is read back, and what follows it is left over. Two units of fuel for each
-- character are enough.
def Reads (j : Json) : Prop :=
  ∀ fuel rest, 2 * (Json.chars j).length ≤ fuel + 1 →
    value? (fuel + 1) (Json.chars j ++ rest) = some (ofJson j, rest)

section Lists

variable {fuel : Nat} {c : Char} {cs rest : List Char}

theorem value?_arr {items : List Document} (hblank : blank c = false) (hclose : c ≠ ']')
    (h : items? fuel (c :: cs) = some (items, rest)) :
    value? (fuel + 1) ('[' :: c :: cs) = some (.arr items, rest) := by
  rw [value?, skip_cons rfl]
  simp only [skip_cons hblank]
  split
  · next heq => exact absurd (List.cons.inj heq).1 hclose
  · rw [h]
    rfl

theorem items?_last {item : Json} (hitem : Reads item)
    (hfuel : 2 * (Json.chars item).length ≤ fuel + 1) :
    items? (fuel + 2) (Json.chars item ++ ']' :: rest) = some ([ofJson item], rest) := by
  rw [items?, hitem fuel _ hfuel]
  simp [skip_cons (c := ']') rfl]

theorem items?_more {item : Json} {items : List Document} (hitem : Reads item)
    (hfuel : 2 * (Json.chars item).length ≤ fuel + 1)
    (hmore : items? (fuel + 1) cs = some (items, rest)) :
    items? (fuel + 2) (Json.chars item ++ ',' :: cs) = some (ofJson item :: items, rest) := by
  rw [items?, hitem fuel _ hfuel]
  simp [skip_cons (c := ',') rfl, hmore]

theorem items?_chars {item : Json} {items : List Json} (h : ∀ value ∈ item :: items, Reads value)
    (hfuel : 2 * (Json.chars item ++ Json.itemsChars items).length ≤ fuel + 1) (rest : List Char) :
    items? (fuel + 2) (Json.chars item ++ (Json.itemsChars items ++ rest)) =
      some (ofItems (item :: items), rest) := by
  have hitem := h item List.mem_cons_self
  induction items generalizing item fuel with
  | nil =>
    simp only [Json.itemsChars, List.length_append, List.length_singleton] at hfuel
    exact items?_last hitem (by omega)
  | cons next items ih =>
    simp only [Json.itemsChars, List.length_append, List.length_cons] at hfuel
    obtain ⟨fuel, rfl⟩ := Nat.exists_eq_add_one_of_ne_zero (show fuel ≠ 0 by omega)
    have hmore : items? (fuel + 2) (Json.chars next ++ (Json.itemsChars items ++ rest)) =
        some (ofItems (next :: items), rest) :=
      ih (fun value hvalue => h value (List.mem_cons_of_mem _ hvalue))
        (by rw [List.length_append]; omega) (h next (by simp))
    have hchars : Json.itemsChars (next :: items) ++ rest =
        ',' :: (Json.chars next ++ (Json.itemsChars items ++ rest)) := by
      simp [Json.itemsChars]
    rw [hchars]
    exact items?_more hitem (by omega) hmore

theorem value?_obj {fuel : Nat} {name : String} {cs rest : List Char}
    {members : List (Option String × Document)}
    (h : pairs? fuel (Json.quoted name ++ cs) = some (members, rest)) :
    value? (fuel + 1) ('\x7b' :: (Json.quoted name ++ cs)) = some (.obj members, rest) := by
  rw [Json.quoted_append] at h ⊢
  rw [value?, skip_cons rfl]
  simp only [skip_cons (c := '"') rfl]
  show (pairs? fuel _).map _ = _
  rw [h]
  rfl

theorem pairs?_last (name : String) {value : Json} (hvalue : Reads value)
    (hfuel : 2 * (Json.chars value).length ≤ fuel + 1) :
    pairs? (fuel + 2) (Json.quoted name ++ ':' :: (Json.chars value ++ '\x7d' :: rest)) =
      some ([(some name, ofJson value)], rest) := by
  rw [pairs?, Json.quoted_append, skip_cons rfl]
  simp [string?_quoted, skip_cons (c := ':') rfl, hvalue fuel _ hfuel, skip_cons (c := '\x7d') rfl]

theorem pairs?_more (name : String) {value : Json} {members : List (Option String × Document)}
    (hvalue : Reads value) (hfuel : 2 * (Json.chars value).length ≤ fuel + 1)
    (hmore : pairs? (fuel + 1) cs = some (members, rest)) :
    pairs? (fuel + 2) (Json.quoted name ++ ':' :: (Json.chars value ++ ',' :: cs)) =
      some ((some name, ofJson value) :: members, rest) := by
  rw [pairs?, Json.quoted_append, skip_cons rfl]
  simp [string?_quoted, skip_cons (c := ':') rfl, hvalue fuel _ hfuel, skip_cons (c := ',') rfl, hmore]

theorem pairs?_chars {name : String} {value : Json} {members : List (String × Json)}
    (h : ∀ member ∈ (name, value) :: members, Reads member.2)
    (hfuel : 2 * (Json.chars value ++ Json.membersChars members).length ≤ fuel + 1)
    (rest : List Char) :
    pairs? (fuel + 2) (Json.quoted name ++
        ':' :: (Json.chars value ++ (Json.membersChars members ++ rest))) =
      some (ofMembers ((name, value) :: members), rest) := by
  have hvalue : Reads value := h _ List.mem_cons_self
  induction members generalizing name value fuel with
  | nil =>
    simp only [Json.membersChars, List.length_append, List.length_singleton] at hfuel
    exact pairs?_last name hvalue (by omega)
  | cons next members ih =>
    obtain ⟨key, after⟩ := next
    simp only [Json.membersChars, List.length_append, List.length_cons] at hfuel
    obtain ⟨fuel, rfl⟩ := Nat.exists_eq_add_one_of_ne_zero (show fuel ≠ 0 by omega)
    have hmore : pairs? (fuel + 2) (Json.quoted key ++
          ':' :: (Json.chars after ++ (Json.membersChars members ++ rest))) =
        some (ofMembers ((key, after) :: members), rest) :=
      ih (fun member hmember => h member (List.mem_cons_of_mem _ hmember))
        (by rw [List.length_append]; omega) (h (key, after) (by simp))
    have hchars : Json.membersChars ((key, after) :: members) ++ rest =
        ',' :: (Json.quoted key ++
          ':' :: (Json.chars after ++ (Json.membersChars members ++ rest))) := by
      simp [Json.membersChars]
    rw [hchars]
    exact pairs?_more name hvalue (by omega) hmore

end Lists

end Document

-- A list begins with an item, and an item neither with a blank nor with the end of the list.
theorem Json.Legible.chars_cons {depth : Nat} {j : Json} (h : j.Legible depth) :
    ∃ c cs, j.chars = c :: cs ∧ Document.blank c = false ∧ c ≠ ']' := by
  cases h with
  | null => exact ⟨_, _, rfl, rfl, by decide⟩
  | bool b => cases b <;> exact ⟨_, _, rfl, rfl, by decide⟩
  | str s => exact ⟨_, _, rfl, rfl, by decide⟩
  | @arr _ items => cases items <;> exact ⟨_, _, rfl, rfl, by decide⟩
  | @obj _ members => cases members <;> exact ⟨_, _, rfl, rfl, by decide⟩

namespace Document

theorem itemsDepth_ofItems {depth : Nat} {items : List Json}
    (h : ∀ item ∈ items, (ofJson item).depth ≤ depth) : itemsDepth (ofItems items) ≤ depth := by
  induction items with
  | nil => exact Nat.zero_le depth
  | cons item items ih =>
    obtain ⟨hitem, hitems⟩ := List.forall_mem_cons.1 h
    exact Nat.max_le.2 ⟨hitem, ih hitems⟩

theorem membersDepth_ofMembers {depth : Nat} {members : List (String × Json)}
    (h : ∀ member ∈ members, (ofJson member.2).depth ≤ depth) :
    membersDepth (ofMembers members) ≤ depth := by
  induction members with
  | nil => exact Nat.zero_le depth
  | cons member members ih =>
    obtain ⟨hmember, hmembers⟩ := List.forall_mem_cons.1 h
    exact Nat.max_le.2 ⟨hmember, ih hmembers⟩

theorem itemsJson?_ofItems {items : List Json} (h : ∀ item ∈ items, (ofJson item).json? = some item) :
    itemsJson? (ofItems items) = some items := by
  induction items with
  | nil => rfl
  | cons item items ih =>
    obtain ⟨hitem, hitems⟩ := List.forall_mem_cons.1 h
    simp [ofItems, itemsJson?, hitem, ih hitems]

theorem membersJson?_ofMembers {members : List (String × Json)}
    (h : ∀ member ∈ members, (ofJson member.2).json? = some member.2) :
    membersJson? (ofMembers members) = some members := by
  induction members with
  | nil => rfl
  | cons member members ih =>
    obtain ⟨hmember, hmembers⟩ := List.forall_mem_cons.1 h
    simp [ofMembers, membersJson?, hmember, ih hmembers]

variable {depth : Nat} {j : Json}

theorem depth_ofJson (h : j.Legible depth) : (ofJson j).depth ≤ depth := by
  induction h with
  | null | bool _ | str _ => exact Nat.zero_le _
  | arr _ ih => exact Nat.succ_le_succ (itemsDepth_ofItems ih)
  | obj _ _ ih => exact Nat.succ_le_succ (membersDepth_ofMembers ih)

-- The document stands for the value.
theorem json?_ofJson (h : j.Legible depth) : (ofJson j).json? = some j := by
  induction h with
  | null | bool _ | str _ => rfl
  | arr _ ih => rw [ofJson, json?, itemsJson?_ofItems ih, Option.map_some]
  | obj sorted _ ih =>
    rw [ofJson, json?, membersJson?_ofMembers ih, Option.map_some, Json.object,
      Json.ordered_of_sorted sorted]

theorem Reads.of_legible (h : j.Legible depth) : Reads j := by
  induction h with
  | null => exact fun fuel rest _ => rfl
  | bool b => cases b <;> exact fun fuel rest _ => rfl
  | str s => exact fun fuel rest _ => value?_quoted fuel s rest
  | @arr _ items legible ih =>
    intro fuel rest hfuel
    cases items with
    | nil => rfl
    | cons item items =>
      obtain ⟨c, cs, hchars, hblank, hclose⟩ := (legible item List.mem_cons_self).chars_cons
      have hlength : (Json.chars item).length = cs.length + 1 := by rw [hchars, List.length_cons]
      simp only [Json.chars, List.length_cons, List.length_append] at hfuel
      obtain ⟨fuel, rfl⟩ := Nat.exists_eq_add_of_le' (show 2 ≤ fuel by omega)
      have hitems := items?_chars ih (show _ ≤ fuel + 1 by rw [List.length_append]; omega) rest
      simp only [hchars, List.cons_append] at hitems
      simp only [Json.chars, hchars, List.cons_append, List.append_assoc, ofJson]
      exact value?_arr hblank hclose hitems
  | @obj _ members _ _ ih =>
    intro fuel rest hfuel
    cases members with
    | nil => rfl
    | cons member members =>
      obtain ⟨name, value⟩ := member
      have hname : 1 ≤ (Json.quoted name).length := Nat.succ_le_succ (Nat.zero_le _)
      simp only [Json.chars, List.length_cons, List.length_append] at hfuel
      obtain ⟨fuel, rfl⟩ := Nat.exists_eq_add_of_le' (show 2 ≤ fuel by omega)
      have hpairs := pairs?_chars ih (show _ ≤ fuel + 1 by rw [List.length_append]; omega) rest
      simp only [Json.chars, List.cons_append, List.append_assoc, ofJson]
      exact value?_obj hpairs

-- The text of a value is read as its document.
theorem parse?_text (h : j.Legible depth) : parse? j.text = some (ofJson j) := by
  have hlist : j.text.toList = j.chars := String.toList_ofList
  have hvalue := Reads.of_legible h (2 * j.chars.length + 1) [] (by omega)
  rw [List.append_nil] at hvalue
  simp only [parse?, hlist, hvalue]
  rfl

end Document

namespace Json

-- The text of a value that is not nested too deep stands for the value.
theorem parse?_text {j : Json} (h : j.Legible maxDepth) : parse? j.text = some j := by
  simp only [parse?, Document.parse?_text h, Option.bind_eq_bind, Option.bind_some,
    Document.depth_ofJson h, if_true, Document.json?_ofJson h]

-- The members of every object in the value stand in the order of their names.
def Canonical (j : Json) : Prop := ∀ members, (obj members).Within j → Sorted members

section Canonical

variable {j part : Json} {items : List Json} {members : List (String × Json)}

theorem Canonical.within (h : j.Canonical) (hpart : part.Within j) : part.Canonical :=
  fun members hmembers => h members (hmembers.trans hpart)

theorem Canonical.arr (h : ∀ item ∈ items, item.Canonical) : (arr items).Canonical := by
  intro members hmembers
  cases hmembers with
  | item hmem hwithin => exact h _ hmem members hwithin

theorem Canonical.obj (sorted : Sorted members) (h : ∀ member ∈ members, member.2.Canonical) :
    (obj members).Canonical := by
  intro names hnames
  cases hnames with
  | self => exact sorted
  | member hmem hwithin => exact h _ hmem names hwithin

end Canonical

end Json

namespace Document

mutual
theorem json?_canonical : (d : Document) → ∀ j ∈ d.json?, j.Canonical
  | .null, _, h | .bool _, _, h => by
    cases h
    exact nofun
  | .num _, _, h | .str _, _, h => by
    obtain ⟨_, _, rfl⟩ := Option.map_eq_some_iff.1 h
    exact nofun
  | .arr items, _, h => by
    obtain ⟨values, hvalues, rfl⟩ := Option.map_eq_some_iff.1 h
    exact .arr (itemsJson?_canonical items values hvalues)
  | .obj members, _, h => by
    obtain ⟨values, hvalues, rfl⟩ := Option.map_eq_some_iff.1 h
    exact .obj (Json.sorted_ordered values) fun member hmember =>
      membersJson?_canonical members values hvalues member (Json.mem_of_mem_ordered hmember)

theorem itemsJson?_canonical :
    (items : List Document) → ∀ values ∈ itemsJson? items, ∀ j ∈ values, j.Canonical
  | [], _, h => by
    cases h
    exact nofun
  | item :: rest, _, h => by
    simp only [itemsJson?, Option.bind_eq_bind, Option.mem_def, Option.bind_eq_some_iff,
      Option.some.injEq] at h
    obtain ⟨value, hvalue, values, hvalues, rfl⟩ := h
    exact List.forall_mem_cons.2
      ⟨json?_canonical item value hvalue, itemsJson?_canonical rest values hvalues⟩

theorem membersJson?_canonical : (members : List (Option String × Document)) →
    ∀ values ∈ membersJson? members, ∀ member ∈ values, member.2.Canonical
  | [], _, h => by
    cases h
    exact nofun
  | (name, item) :: rest, _, h => by
    simp only [membersJson?, Option.bind_eq_bind, Option.mem_def, Option.bind_eq_some_iff,
      Option.some.injEq] at h
    obtain ⟨name, -, value, hvalue, values, hvalues, rfl⟩ := h
    exact List.forall_mem_cons.2
      ⟨json?_canonical item value hvalue, membersJson?_canonical rest values hvalues⟩
end

end Document

namespace Json

-- What is read from a text is in order.
theorem parse?_canonical {text : String} {j : Json} (h : parse? text = some j) : j.Canonical := by
  obtain ⟨document, -, hjson⟩ := Option.bind_eq_some_iff.1 h
  obtain ⟨-, hjson⟩ := Option.ite_none_right_eq_some.1 hjson
  exact document.json?_canonical j hjson

section Legible

variable {α : Type} {depth : Nat}

attribute [simp] Legible.null Legible.bool Legible.str

theorem Legible.object {members : List (String × Json)}
    (h : ∀ member ∈ members, Legible depth member.2) : Legible (depth + 1) (object members) :=
  .obj (sorted_ordered members) fun member hmember => h member (mem_of_mem_ordered hmember)

theorem Legible.present {members : List (String × Option Json)}
    (h : ∀ member ∈ members, ∀ value ∈ member.2, Legible depth value) :
    Legible (depth + 1) (present members) := by
  refine .object fun member hmember => ?_
  obtain ⟨⟨name, value⟩, hwritten, hvalue⟩ := List.mem_filterMap.1 hmember
  obtain ⟨value, rfl, rfl⟩ := Option.map_eq_some_iff.1 hvalue
  exact h _ hwritten value rfl

theorem Legible.ofList {write : α → Json} {items : List α}
    (h : ∀ a ∈ items, Legible depth (write a)) : Legible (depth + 1) (ofList write items) :=
  .arr (List.forall_mem_map.2 h)

end Legible

end Json

end CredentialIssuance
