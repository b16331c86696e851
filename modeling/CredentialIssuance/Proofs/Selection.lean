import CredentialIssuance.Agent.Inquiry
import Mathlib.Data.List.Nodup

namespace CredentialIssuance

-- Whether a look-up by thread, narrowed to a role and a connection where these are given, is
-- meant to find the record.
def Exchange.Answers (e : Exchange) (thread : String) (role : Option Role)
    (connection : Option String) : Prop :=
  e.threadId = thread ∧ (∀ r ∈ role, e.role = r) ∧ ∀ c ∈ connection, e.connectionId = c

instance (e : Exchange) (thread : String) (role : Option Role) (connection : Option String) :
    Decidable (e.Answers thread role connection) :=
  inferInstanceAs (Decidable (_ ∧ _ ∧ _))

namespace Inquiry

-- What a look-up says of the records that are listed. A record counts as often as it is listed, and
-- one that does not answer counts nowhere.
inductive Selects (thread : String) (role : Option Role) (connection : Option String)
    (listed : List Exchange) : Except Error (Option Exchange) → Prop
  | vacant (others : ∀ e ∈ listed, ¬ e.Answers thread role connection) :
      Selects thread role connection listed (.ok none)
  | single {before after : List Exchange} {e : Exchange} (place : listed = before ++ e :: after)
      (answers : e.Answers thread role connection)
      (others : ∀ other ∈ before ++ after, ¬ other.Answers thread role connection) :
      Selects thread role connection listed (.ok (some e))
  | several {e e' : Exchange} (places : [e, e'].Sublist listed)
      (answers : e.Answers thread role connection)
      (answers' : e'.Answers thread role connection) :
      Selects thread role connection listed (.error (.invalidMessage (.ambiguousThread thread)))

variable {thread : String} {role : Option Role} {connection : Option String}
  {listed listed' : List Exchange} {e : Exchange}

-- The criteria as one condition.
theorem select_eq_match (thread : String) (role : Option Role) (connection : Option String)
    (listed : List Exchange) :
    select thread role connection listed =
      match listed.filter fun e => e.Answers thread role connection with
      | [] => .ok none
      | [e] => .ok (some e)
      | _ => .error (.invalidMessage (.ambiguousThread thread)) := by
  have hcriteria : (fun e : Exchange =>
      e.threadId = thread && role.all (e.role = ·) && connection.all (e.connectionId = ·)) =
        fun e => decide (e.Answers thread role connection) := by
    funext e
    rw [Bool.eq_iff_iff]
    simp [Exchange.Answers, Option.all_eq_true, and_assoc]
  rw [← hcriteria]
  rfl

theorem select_ambiguous
    (h : 2 ≤ (listed.filter fun e => e.Answers thread role connection).length) :
    select thread role connection listed = .error (.invalidMessage (.ambiguousThread thread)) := by
  rcases hmatching : listed.filter fun e => e.Answers thread role connection with
    _ | ⟨e, _ | ⟨e', rest⟩⟩
  · simp [hmatching] at h
  · simp [hmatching] at h
  · rw [select_eq_match, hmatching]

theorem select_selects (thread : String) (role : Option Role) (connection : Option String)
    (listed : List Exchange) :
    Selects thread role connection listed (select thread role connection listed) := by
  rcases hmatching : listed.filter fun e => e.Answers thread role connection with
    _ | ⟨e, _ | ⟨e', rest⟩⟩
  · rw [select_eq_match, hmatching]
    exact .vacant (by simpa using hmatching)
  · rw [select_eq_match, hmatching]
    obtain ⟨before, after, hplace, hbefore, he, hafter⟩ := List.filter_eq_cons_iff.1 hmatching
    refine .single hplace (of_decide_eq_true he) fun other hother => ?_
    rcases List.mem_append.1 hother with hother | hother
    · simpa using hbefore other hother
    · simpa using List.filter_eq_nil_iff.1 hafter other hother
  · rw [select_eq_match, hmatching]
    have hplaces : [e, e'].Sublist (listed.filter fun e => e.Answers thread role connection) := by
      simp [hmatching]
    have hanswers : ∀ x ∈ [e, e'], x.Answers thread role connection := fun x hx =>
      of_decide_eq_true (List.mem_filter.1 (hplaces.subset hx)).2
    exact .several (hplaces.trans List.filter_sublist) (hanswers e (by simp))
      (hanswers e' (by simp))

theorem Selects.eq {result : Except Error (Option Exchange)}
    (h : Selects thread role connection listed result) :
    select thread role connection listed = result := by
  cases h with
  | vacant others =>
    have hnone : (listed.filter fun e => e.Answers thread role connection) = [] := by
      simpa using others
    rw [select_eq_match, hnone]
  | @single before after e place answers others =>
    have hone : (listed.filter fun e => e.Answers thread role connection) = [e] := by
      refine List.filter_eq_cons_iff.2 ⟨before, after, place, ?_, decide_eq_true answers, ?_⟩
      · intro x hx
        simpa using others x (List.mem_append_left _ hx)
      · refine List.filter_eq_nil_iff.2 fun x hx => ?_
        simpa using others x (List.mem_append_right _ hx)
    rw [select_eq_match, hone]
  | several places answers answers' =>
    have hlength := (places.filter fun e => e.Answers thread role connection).length_le
    exact select_ambiguous (by simpa [answers, answers'] using hlength)

theorem select_eq_iff {result : Except Error (Option Exchange)} :
    select thread role connection listed = result ↔ Selects thread role connection listed result :=
  ⟨fun h => h ▸ select_selects thread role connection listed, Selects.eq⟩

-- In which order the records are listed makes no difference.
theorem select_perm (h : listed.Perm listed') :
    select thread role connection listed = select thread role connection listed' := by
  have hmatching := h.filter fun e => e.Answers thread role connection
  rcases hlisted : listed.filter fun e => e.Answers thread role connection with
    _ | ⟨e, _ | ⟨e', rest⟩⟩
  · rw [hlisted] at hmatching
    rw [select_eq_match, select_eq_match, hlisted, hmatching.symm.eq_nil]
  · rw [hlisted] at hmatching
    rw [select_eq_match, select_eq_match, hlisted, List.perm_singleton.1 hmatching.symm]
  · have hlength : 2 ≤ (listed.filter fun e => e.Answers thread role connection).length := by
      simp [hlisted]
    rw [select_ambiguous hlength, select_ambiguous (hmatching.length_eq ▸ hlength)]

-- What is listed of other threads does not count.
theorem select_filter (thread : String) (role : Option Role) (connection : Option String)
    (listed : List Exchange) :
    select thread role connection (listed.filter fun e => e.threadId = thread) =
      select thread role connection listed := by
  simp only [select, List.filter_filter, Bool.and_assoc]
  simp only [Bool.and_comm _ (decide (Exchange.threadId _ = thread)), Bool.and_left_comm,
    Bool.and_self_left]

theorem select_some (h : select thread role connection listed = .ok (some e)) :
    e ∈ listed ∧ e.Answers thread role connection := by
  cases select_eq_iff.1 h with
  | single place answers others => exact ⟨by simp [place], answers⟩

theorem select_none (h : select thread role connection listed = .ok none) :
    ∀ e ∈ listed, ¬ e.Answers thread role connection := by
  cases select_eq_iff.1 h with
  | vacant others => exact others

theorem select_vacant (h : ∀ e ∈ listed, ¬ e.Answers thread role connection) :
    select thread role connection listed = .ok none := Selects.eq (.vacant h)

-- A look-up that succeeds has found the record that it is meant to find.
theorem select_eq {found : Option Exchange}
    (h : select thread role connection listed = .ok found) (he : e ∈ listed)
    (answers : e.Answers thread role connection) : found = some e := by
  cases select_eq_iff.1 h with
  | vacant others => exact absurd answers (others e he)
  | @single before after only place _ others =>
    by_cases hsame : only = e
    · rw [hsame]
    · rw [place] at he
      exact absurd answers (others e (by simpa [Ne.symm hsame] using he))

-- A look-up that is at fault has found two records where one was meant.
theorem select_fault {x : Error} (distinct : listed.Nodup)
    (h : select thread role connection listed = .error x) :
    x = .invalidMessage (.ambiguousThread thread) ∧
      ∃ e ∈ listed, ∃ e' ∈ listed, e ≠ e' ∧ e.Answers thread role connection ∧
        e'.Answers thread role connection := by
  cases select_eq_iff.1 h with
  | @several e e' places answers answers' =>
    have hne : e ≠ e' := by simpa using distinct.sublist places
    exact ⟨rfl, e, places.subset (by simp), e', places.subset (by simp), hne, answers, answers'⟩

end Inquiry

end CredentialIssuance
