namespace CredentialIssuance

-- Entries stand in the order in which their keys came in.
structure Table {α κ : Type} (key : α → κ) where
  entries : List α
  distinct : (entries.map key).Nodup

namespace Table

variable {α κ : Type} {key : α → κ}

instance [DecidableEq α] : DecidableEq (Table key) := fun s t =>
  decidable_of_iff (s.entries = t.entries) <| by cases s; cases t; simp

def empty : Table key := ⟨[], .nil⟩

def size (t : Table key) : Nat := t.entries.length

variable [DecidableEq κ]

def get? (t : Table key) (k : κ) : Option α := t.entries.find? fun a => key a = k

-- Replaces the first entry of the key, or adds the new one at the end.
def upsert (key : α → κ) (new : α) : List α → List α
  | [] => [new]
  | old :: rest => if key old = key new then new :: rest else old :: upsert key new rest

-- A known key keeps its place, a new one comes last.
theorem map_upsert (new : α) (entries : List α) :
    (upsert key new entries).map key =
      if key new ∈ entries.map key then entries.map key else entries.map key ++ [key new] := by
  induction entries with
  | nil => simp [upsert]
  | cons old rest ih =>
    by_cases h : key old = key new
    · simp [upsert, h]
    · simp only [upsert, h, if_false, List.map_cons, ih, List.mem_cons, Ne.symm h, false_or]
      split <;> simp

theorem distinct_upsert (new : α) {entries : List α} (h : (entries.map key).Nodup) :
    ((upsert key new entries).map key).Nodup := by
  rw [map_upsert]
  split
  · exact h
  · next absent =>
    rw [List.nodup_append]
    refine ⟨h, by simp, ?_⟩
    intro k hk k' hk' same
    simp only [List.mem_singleton] at hk'
    exact absent (hk' ▸ same ▸ hk)

def put (t : Table key) (new : α) : Table key :=
  ⟨upsert key new t.entries, distinct_upsert new t.distinct⟩

def erase (t : Table key) (k : κ) : Table key where
  entries := t.entries.filter fun a => key a ≠ k
  distinct := t.distinct.sublist (List.filter_sublist.map key)

theorem find?_upsert (new : α) (k : κ) (entries : List α) :
    (upsert key new entries).find? (fun a => key a = k) =
      if key new = k then some new else entries.find? fun a => key a = k := by
  induction entries with
  | nil => by_cases h : key new = k <;> simp [upsert, h]
  | cons old rest ih =>
    by_cases same : key old = key new
    · by_cases h : key new = k <;> simp [upsert, same, h]
    · by_cases h : key old = k
      · have other : k ≠ key new := fun e => same (h.trans e)
        simp [upsert, h, other, Ne.symm other]
      · simp [upsert, same, h, ih]

theorem get?_put (t : Table key) (new : α) (k : κ) :
    (t.put new).get? k = if key new = k then some new else t.get? k :=
  find?_upsert new k t.entries

theorem get?_erase (t : Table key) (k k' : κ) :
    (t.erase k).get? k' = if k = k' then none else t.get? k' := by
  simp only [get?, erase, List.find?_filter]
  split
  · next same => simp [same]
  · next other =>
    congr 1
    funext a
    by_cases h : key a = k' <;> simp [h, Ne.symm other]

-- The entries are those that can be looked up.
theorem get?_eq_some_iff (t : Table key) (k : κ) (a : α) :
    t.get? k = some a ↔ a ∈ t.entries ∧ key a = k := by
  obtain ⟨entries, distinct⟩ := t
  simp only [get?]
  induction entries with
  | nil => simp
  | cons old rest ih =>
    obtain ⟨absent, distinct⟩ := List.nodup_cons.1 distinct
    by_cases h : key old = k
    · simp only [List.find?_cons, h, decide_true, Option.some.injEq, List.mem_cons]
      constructor
      · rintro rfl
        exact ⟨.inl rfl, h⟩
      · rintro ⟨rfl | later, same⟩
        · rfl
        · exact absurd (h ▸ same ▸ List.mem_map_of_mem later) absent
    · simp only [List.find?_cons, h, decide_false, ih distinct, List.mem_cons]
      constructor
      · rintro ⟨later, same⟩
        exact ⟨.inr later, same⟩
      · rintro ⟨rfl | later, same⟩
        · exact absurd same h
        · exact ⟨later, same⟩

theorem mem_put_iff (t : Table key) (new a : α) :
    a ∈ (t.put new).entries ↔ a = new ∨ a ∈ t.entries ∧ key a ≠ key new := by
  have hput := (t.put new).get?_eq_some_iff (key a) a
  rw [get?_put] at hput
  by_cases h : key new = key a
  · rw [if_pos h] at hput
    simp only [Option.some.injEq, and_true] at hput
    rw [← hput]
    simp [h, eq_comm]
  · rw [if_neg h, t.get?_eq_some_iff] at hput
    simp only [and_true] at hput
    rw [← hput]
    constructor
    · exact fun hmem => .inr ⟨hmem, Ne.symm h⟩
    · rintro (rfl | ⟨hmem, -⟩)
      · exact absurd rfl h
      · exact hmem

end Table

end CredentialIssuance
