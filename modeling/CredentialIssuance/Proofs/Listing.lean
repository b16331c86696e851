import CredentialIssuance.Proofs.Operation

namespace CredentialIssuance

-- What a store lists when it is asked for the records on a thread.
def Listing : Type := String → Inquiry (List Exchange)

namespace Listing

open Inquiry (Selects select select_eq_iff select_filter select_none select_perm select_selects
  select_vacant)

-- The agent's own store lists the records that it holds.
def stored : Listing := fun thread => do
  Inquiry.call (.byThread thread)
  return (← Inquiry.stores).onThread thread

def onThread (list : Listing) (thread : String) (role : Option Role) (connection : Option String) :
    Inquiry (Option Exchange) := do
  select thread role connection (← list thread)

def bound (list : Listing) (thread : String) (role : Option Role) (connection : Option String) :
    Inquiry (Option Exchange) := do
  Inquiry.preferBound (← Inquiry.config).connectionlessId (list.onThread thread role) connection

-- Two answers with the same records of the thread, in any order. What else is listed may differ.
inductive Agrees (thread : String) :
    Except Error (List Exchange) × Journal → Except Error (List Exchange) × Journal → Prop
  | listed {listed listed' : List Exchange} {after : Journal}
      (same : (listed.filter fun e => e.threadId = thread).Perm
        (listed'.filter fun e => e.threadId = thread)) :
      Agrees thread (.ok listed, after) (.ok listed', after)
  | failed (x : Error) (after : Journal) : Agrees thread (.error x, after) (.error x, after)

theorem stored_onThread : stored.onThread = Inquiry.onThread := by
  funext thread role connection
  simp only [onThread, stored, Inquiry.onThread, bind_assoc, pure_bind]

theorem stored_bound : stored.bound = Inquiry.bound := by
  funext thread role connection
  simp only [bound, Inquiry.bound, stored_onThread]

variable {list other : Listing} {thread c : String} {role : Option Role}
  {connection : Option String} {env : Environment} {s : Stores} {journal after final : Journal}
  {listed : List Exchange} {result : Except Error (Option Exchange)} {x : Error}

theorem onThread_apply (list : Listing) (thread : String) (role : Option Role)
    (connection : Option String) (env : Environment) (s : Stores) (journal : Journal) :
    list.onThread thread role connection env s journal =
      match list thread env s journal with
      | (.ok listed, after) => (select thread role connection listed, after)
      | (.error x, after) => (.error x, after) := by
  rw [onThread, Inquiry.bind_apply]
  rcases list thread env s journal with ⟨_ | listed, after⟩ <;> rfl

theorem onThread_eq_iff (answered : list thread env s journal = (.ok listed, after)) :
    list.onThread thread role connection env s journal = (result, final) ↔
      Selects thread role connection listed result ∧ final = after := by
  rw [onThread_apply, answered, Prod.mk.injEq, select_eq_iff, @eq_comm _ after]

theorem onThread_failed (failed : list thread env s journal = (.error x, after)) :
    list.onThread thread role connection env s journal = (.error x, after) := by
  rw [onThread_apply, failed]

theorem bound_none (list : Listing) (thread : String) (role : Option Role) :
    list.bound thread role none = list.onThread thread role none := rfl

-- A second look-up is made only if the first one succeeds and finds nothing.
theorem bound_apply (list : Listing) (thread : String) (role : Option Role) (c : String)
    (env : Environment) (s : Stores) (journal : Journal) :
    list.bound thread role (some c) env s journal =
      match list.onThread thread role (some c) env s journal with
      | (.ok (some e), after) => (.ok (some e), after)
      | (.ok none, after) =>
        list.onThread thread role (some env.config.connectionlessId) env s after
      | (.error x, after) => (.error x, after) := by
  simp only [bound, Inquiry.preferBound, Inquiry.bind_apply, Inquiry.config]
  rcases list.onThread thread role (some c) env s journal with ⟨_ | _ | e, after⟩ <;> rfl

-- The records on the connection decide if there are any.
theorem bound_of_selects (answered : list thread env s journal = (.ok listed, after))
    (h : Selects thread role (some c) listed result) (found : result ≠ .ok none) :
    list.bound thread role (some c) env s journal = (result, after) := by
  rw [bound_apply, (onThread_eq_iff answered).2 ⟨h, rfl⟩]
  rcases result with _ | _ | e
  · rfl
  · exact absurd rfl found
  · rfl

theorem bound_of_vacant (answered : list thread env s journal = (.ok listed, after))
    (vacant : ∀ e ∈ listed, ¬ e.Answers thread role (some c)) :
    list.bound thread role (some c) env s journal =
      list.onThread thread role (some env.config.connectionlessId) env s after := by
  rw [bound_apply, (onThread_eq_iff answered).2 ⟨.vacant vacant, rfl⟩]

theorem bound_eq_iff (answered : list thread env s journal = (.ok listed, after)) :
    list.bound thread role (some c) env s journal = (result, final) ↔
      (Selects thread role (some c) listed result ∧ result ≠ .ok none ∧ final = after) ∨
      ((∀ e ∈ listed, ¬ e.Answers thread role (some c)) ∧
        list.onThread thread role (some env.config.connectionlessId) env s after =
          (result, final)) := by
  by_cases hvacant : ∀ e ∈ listed, ¬ e.Answers thread role (some c)
  · rw [bound_of_vacant answered hvacant]
    refine ⟨fun h => .inr ⟨hvacant, h⟩, ?_⟩
    rintro (⟨hselects, found, -⟩ | ⟨-, h⟩)
    · exact absurd (hselects.eq.symm.trans (select_vacant hvacant)) found
    · exact h
  · have hfound : select thread role (some c) listed ≠ .ok none := mt select_none hvacant
    rw [bound_of_selects answered (select_selects _ _ _ _) hfound]
    constructor
    · rintro ⟨⟩
      exact .inl ⟨select_selects _ _ _ _, hfound, rfl⟩
    · rintro (⟨hselects, -, rfl⟩ | ⟨vacant, -⟩)
      · rw [hselects.eq]
      · exact absurd vacant hvacant

theorem bound_failed (failed : list thread env s journal = (.error x, after)) :
    list.bound thread role connection env s journal = (.error x, after) := by
  cases connection with
  | none => exact onThread_failed failed
  | some c => rw [bound_apply, onThread_failed failed]

theorem Agrees.onThread
    (h : Agrees thread (list thread env s journal) (other thread env s journal)) :
    list.onThread thread role connection env s journal =
      other.onThread thread role connection env s journal := by
  rw [onThread_apply, onThread_apply]
  generalize list thread env s journal = answer at h
  generalize other thread env s journal = answer' at h
  cases h with
  | @listed listed listed' after same =>
    have hselect :
        select thread role connection listed = select thread role connection listed' := by
      rw [← select_filter, select_perm same, select_filter]
    exact congrArg (·, after) hselect
  | failed x after => rfl

theorem Agrees.bound
    (h : ∀ journal, Agrees thread (list thread env s journal) (other thread env s journal)) :
    list.bound thread role connection env s journal =
      other.bound thread role connection env s journal := by
  cases connection with
  | none => exact (h journal).onThread
  | some c =>
    rw [bound_apply, bound_apply, (h journal).onThread]
    split
    · rfl
    · exact (h _).onThread
    · rfl

-- Whatever the store lists, a look-up by thread finds the record that meets its criteria if one
-- does, nothing if none does, and is at fault if several do. A look-up for a connection asks in
-- this way for the records on the connection and, only if there are none, once more for those that
-- have none yet; one without a connection asks by thread and role alone. If the store fails, so
-- does the look-up. Order and foreign records do not matter, and the look-ups of an agent are those
-- over its own store.
theorem lookups_select (list : Listing) (thread : String) (role : Option Role) (env : Environment)
    (s : Stores) :
    (∀ connection journal listed after, list thread env s journal = (.ok listed, after) →
      ∀ result final, list.onThread thread role connection env s journal = (result, final) ↔
        Selects thread role connection listed result ∧ final = after) ∧
    (∀ c journal listed after, list thread env s journal = (.ok listed, after) →
      ∀ result final, list.bound thread role (some c) env s journal = (result, final) ↔
        (Selects thread role (some c) listed result ∧ result ≠ .ok none ∧ final = after) ∨
        ((∀ e ∈ listed, ¬ e.Answers thread role (some c)) ∧
          list.onThread thread role (some env.config.connectionlessId) env s after =
            (result, final))) ∧
    list.bound thread role none = list.onThread thread role none ∧
    (∀ connection journal x after, list thread env s journal = (.error x, after) →
      list.onThread thread role connection env s journal = (.error x, after) ∧
        list.bound thread role connection env s journal = (.error x, after)) ∧
    (∀ other : Listing,
      (∀ journal, Agrees thread (list thread env s journal) (other thread env s journal)) →
      ∀ connection journal,
        list.onThread thread role connection env s journal =
          other.onThread thread role connection env s journal ∧
        list.bound thread role connection env s journal =
          other.bound thread role connection env s journal) ∧
    stored.onThread = Inquiry.onThread ∧ stored.bound = Inquiry.bound := by
  refine ⟨?_, ?_, bound_none list thread role, ?_, ?_, stored_onThread, stored_bound⟩
  · intro connection journal listed after answered result final
    exact onThread_eq_iff answered
  · intro c journal listed after answered result final
    exact bound_eq_iff answered
  · intro connection journal x after failed
    exact ⟨onThread_failed failed, bound_failed failed⟩
  · intro other agrees connection journal
    exact ⟨(agrees journal).onThread, Agrees.bound agrees⟩

-- The store lists a foreign record, one without a connection of its own and one on the connection,
-- another store the last two in the other order, and a third one is down.
theorem lookups_select_mixed :
    let env := Environment.steady 'a'
    let record (id thread connection : String) : Exchange :=
      .new id .issuer .v2 .offerSent thread connection (env.now 0)
    let free := record "2" "t" env.config.connectionlessId
    let own := record "3" "t" "c"
    let list : Listing := fun thread _ _ journal =>
      (.ok [record "1" "u" "c", free, own], journal.asked (.byThread thread))
    let other : Listing := fun thread _ _ journal =>
      (.ok [own, free], journal.asked (.byThread thread))
    let down : Listing := fun _ _ _ journal => (.error (.external "down"), journal)
    let after := Journal.empty.asked (.byThread "t")
    list.bound "t" none (some "c") env .empty .empty = (.ok (some own), after) ∧
    list.bound "t" none (some "d") env .empty .empty =
      (.ok (some free), after.asked (.byThread "t")) ∧
    list.bound "t" none none env .empty .empty =
      (.error (.invalidMessage (.ambiguousThread "t")), after) ∧
    list.bound "t" none (some "d") env .empty .empty =
      other.bound "t" none (some "d") env .empty .empty ∧
    down.bound "t" none (some "c") env .empty .empty = (.error (.external "down"), .empty) := by
  intro env record free own list other down after
  obtain ⟨honThread, hbound, hnone, -, horder, -⟩ := lookups_select list "t" none env .empty
  refine ⟨?own, ?free, ?ambiguous, ?reordered, ?down⟩
  case own =>
    refine (hbound "c" .empty _ after rfl _ _).2 (.inl ⟨?_, nofun, rfl⟩)
    exact .single (show _ = [record "1" "u" "c", free] ++ own :: [] from rfl) (by decide)
      (by decide)
  case free =>
    refine (hbound "d" .empty _ after rfl _ _).2 (.inr ⟨by decide, ?_⟩)
    refine (honThread _ after _ _ rfl _ _).2 ⟨?_, rfl⟩
    exact .single (show _ = [record "1" "u" "c"] ++ free :: [own] from rfl) (by decide)
      (by decide)
  case ambiguous =>
    rw [hnone]
    refine (honThread none .empty _ after rfl _ _).2 ⟨?_, rfl⟩
    have hplaces : [free, own].Sublist [record "1" "u" "c", free, own] := by decide
    exact .several hplaces (by decide) (by decide)
  case reordered =>
    exact (horder other (fun _ => .listed (by decide)) (some "d") .empty).2
  case down =>
    obtain ⟨-, -, -, hfailed, -⟩ := lookups_select down "t" none env .empty
    exact (hfailed (some "c") .empty _ _ rfl).2

end Listing

end CredentialIssuance
