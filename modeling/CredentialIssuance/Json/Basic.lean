import CredentialIssuance.Binary64

namespace CredentialIssuance

inductive Number where
  | int (value : Int)
  | float (value : Binary64)
  deriving DecidableEq, Repr

-- Integers and floating-point numbers are kept apart. The members of an object stand in the order
-- of their names, each name once, in every object that `Json.object` builds.
inductive Json where
  | null
  | bool (value : Bool)
  | num (value : Number)
  | str (value : String)
  | arr (items : List Json)
  | obj (members : List (String × Json))

namespace Json

mutual
def same : Json → Json → Bool
  | .null, .null => true
  | .bool a, .bool b => a == b
  | .num a, .num b => decide (a = b)
  | .str a, .str b => a == b
  | .arr xs, .arr ys => sameItems xs ys
  | .obj ms, .obj ns => sameMembers ms ns
  | _, _ => false

def sameItems : List Json → List Json → Bool
  | [], [] => true
  | x :: xs, y :: ys => same x y && sameItems xs ys
  | _, _ => false

def sameMembers : List (String × Json) → List (String × Json) → Bool
  | [], [] => true
  | (a, x) :: ms, (b, y) :: ns => a == b && same x y && sameMembers ms ns
  | _, _ => false
end

mutual
theorem same_iff : (x y : Json) → (same x y = true ↔ x = y)
  | .null, y => by cases y <;> simp [same]
  | .bool _, y => by cases y <;> simp [same]
  | .num _, y => by cases y <;> simp [same]
  | .str _, y => by cases y <;> simp [same]
  | .arr xs, y => by cases y <;> simp [same, sameItems_iff xs]
  | .obj ms, y => by cases y <;> simp [same, sameMembers_iff ms]

theorem sameItems_iff : (xs ys : List Json) → (sameItems xs ys = true ↔ xs = ys)
  | [], ys => by cases ys <;> simp [sameItems]
  | x :: xs, ys => by cases ys <;> simp [sameItems, same_iff x, sameItems_iff xs]

theorem sameMembers_iff : (ms ns : List (String × Json)) → (sameMembers ms ns = true ↔ ms = ns)
  | [], ns => by cases ns <;> simp [sameMembers]
  | (a, x) :: ms, ns => by
      cases ns with
      | nil => simp [sameMembers]
      | cons n ns => simp [sameMembers, same_iff x, sameMembers_iff ms, Prod.ext_iff]
end

instance : DecidableEq Json := fun x y => decidable_of_iff _ (same_iff x y)

-- The first member of that name.
def lookup {α : Type} (name : String) : List (String × α) → Option α
  | [] => none
  | (key, value) :: rest => if key = name then some value else lookup name rest

-- Puts a member at its place in a list ordered by name. A member of that name is replaced.
def insert {α : Type} (name : String) (value : α) : List (String × α) → List (String × α)
  | [] => [(name, value)]
  | (key, old) :: rest =>
    if name = key then (name, value) :: rest
    else if name < key then (name, value) :: (key, old) :: rest
    else (key, old) :: insert name value rest

-- The members in order of their names. Of several members with one name the last one counts.
def ordered {α : Type} (members : List (String × α)) : List (String × α) :=
  members.foldl (fun sorted member => insert member.1 member.2 sorted) []

theorem lookup_insert {α : Type} (name key : String) (value : α) (members : List (String × α)) :
    lookup key (insert name value members) = if name = key then some value else lookup key members := by
  induction members with
  | nil => simp [insert, lookup]
  | cons member rest ih =>
    obtain ⟨other, old⟩ := member
    by_cases same : name = other
    · subst same
      by_cases h : name = key <;> simp [insert, lookup, h]
    · by_cases before : name < other
      · simp [insert, lookup, same, before]
      · by_cases h : other = key
        · subst h
          simp [insert, lookup, same, before]
        · simp [insert, lookup, same, before, h, ih]

theorem lookup_append {α : Type} (name : String) (members more : List (String × α)) :
    lookup name (members ++ more) = (lookup name members).or (lookup name more) := by
  induction members with
  | nil => rfl
  | cons member rest ih =>
    by_cases h : member.1 = name <;> simp [lookup, h, ih]

theorem lookup_foldl_insert {α : Type} (name : String) (members sorted : List (String × α)) :
    lookup name (members.foldl (fun sorted member => insert member.1 member.2 sorted) sorted) =
      (lookup name members.reverse).or (lookup name sorted) := by
  induction members generalizing sorted with
  | nil => rfl
  | cons member rest ih =>
    rw [List.foldl_cons, ih, lookup_insert, List.reverse_cons, lookup_append, Option.or_assoc]
    by_cases h : member.1 = name <;> simp [lookup, h]

-- The last member of a name decides.
theorem lookup_ordered {α : Type} (name : String) (members : List (String × α)) :
    lookup name (ordered members) = lookup name members.reverse := by
  simp [ordered, lookup_foldl_insert, lookup]

-- The names ascend, so none of them comes twice.
def Sorted {α : Type} (members : List (String × α)) : Prop :=
  (members.map Prod.fst).Pairwise (· < ·)

theorem mem_names_insert {α : Type} {name key : String} {value : α} {members : List (String × α)}
    (h : key ∈ (insert name value members).map Prod.fst) :
    key = name ∨ key ∈ members.map Prod.fst := by
  induction members with
  | nil => simpa [insert] using h
  | cons member rest ih =>
    simp only [insert] at h
    split at h
    · simp_all
    · split at h
      · simpa using h
      · simp only [List.map_cons, List.mem_cons] at h ih ⊢
        rcases h with h | h
        · exact .inr (.inl h)
        · exact (ih h).imp id .inr

theorem Sorted.insert {α : Type} (name : String) (value : α) {members : List (String × α)}
    (h : Sorted members) : Sorted (Json.insert name value members) := by
  induction members with
  | nil => simp [Sorted, Json.insert]
  | cons member rest ih =>
    obtain ⟨other, old⟩ := member
    simp only [Sorted, List.map_cons, List.pairwise_cons] at h ih ⊢
    simp only [Json.insert]
    split
    · next same => simpa [same] using h
    · next distinct =>
      split
      · next before =>
        simp only [List.map_cons, List.pairwise_cons, List.mem_cons]
        refine ⟨?_, h⟩
        rintro key (rfl | later)
        · exact before
        · exact String.lt_trans before (h.1 key later)
      · next after =>
        simp only [List.map_cons, List.pairwise_cons]
        refine ⟨fun key mem => ?_, ih h.2⟩
        rcases mem_names_insert mem with rfl | later
        · exact String.not_le.1 fun le => distinct (String.le_antisymm le (String.not_lt.1 after))
        · exact h.1 key later

theorem sorted_ordered {α : Type} (members : List (String × α)) : Sorted (ordered members) := by
  have keep (members sorted : List (String × α)) (h : Sorted sorted) :
      Sorted (members.foldl (fun sorted member => insert member.1 member.2 sorted) sorted) := by
    induction members generalizing sorted with
    | nil => exact h
    | cons member rest ih => exact ih _ (h.insert member.1 member.2)
  exact keep members [] .nil

def object (members : List (String × Json)) : Json := .obj (ordered members)

-- An object of the members that are present.
def present (members : List (String × Option Json)) : Json :=
  object (members.filterMap fun (name, value) => value.map (name, ·))

def get? (j : Json) (name : String) : Option Json :=
  match j with
  | .obj members => lookup name members
  | _ => none

def str? : Json → Option String
  | .str s => some s
  | _ => none

end Json

end CredentialIssuance
