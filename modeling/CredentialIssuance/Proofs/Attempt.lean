import CredentialIssuance.Proofs.Functional
import CredentialIssuance.Proofs.Plan
import CredentialIssuance.Proofs.Renaming
import CredentialIssuance.Proofs.Wire
import Mathlib.Order.BooleanAlgebra.Basic

namespace CredentialIssuance

-- The same stores but for the message at one place.
structure Stores.Besides (key : String × String) (s s' : Stores) : Prop where
  records : s'.records = s.records
  messages : ∀ other, other ≠ key → s'.messages.get? other = s.messages.get? other

namespace Stores.Besides

theorem refl (key : String × String) (s : Stores) : s.Besides key s :=
  ⟨rfl, fun _ _ => rfl⟩

theorem putMessage (s : Stores) (m : StoredMessage) : s.Besides m.key (s.putMessage m) := by
  refine ⟨rfl, fun other hother => ?_⟩
  rw [Stores.putMessage, Table.get?_put, if_neg (Ne.symm hother)]

end Stores.Besides

-- The same record under other names, and made at another time.
def Exchange.Renewed (e e' : Exchange) : Prop :=
  e' = { e with id := e'.id, threadId := e'.threadId, createdAt := e'.createdAt }

-- A place for the message of the operation. An operation that sends a message does not read another
-- one of the same kind for it.
def Operation.Fills (operation : Operation) (key : String × String) : Prop :=
  operation.party = .sender → ∃ version, key.2 = typeUri version operation.kind

theorem Operation.Fills.ne {operation : Operation} {key : String × String} (h : operation.Fills key)
    (own : operation.party = .sender) (e : Exchange) {kind : Kind} (other : kind ≠ operation.kind) :
    (e.id, typeUri e.version kind) ≠ key := by
  rintro rfl
  obtain ⟨version, htype⟩ := h own
  exact other (typeUri_inj htype).2

-- An operation is planned for a second time, where another message may be stored at one place. The
-- record that is found is the same, and one that is opened has names of its own. What comes of an
-- error does not matter.
def Environment.attempts (env : Environment) (version : Version) (operation : Operation)
    (key : String × String) : Pairing Bool where
  env := env
  env' := env
  version := version
  version' := version
  error _ _ _ := True
  id _ := (· = ·)
  mark
    | false => (· = ·)
    | true => fun m m' => m'.version = m.version ∧ m'.updatedAt = m.updatedAt
  thread _ _ := True
  header _ h h' := h'.thread = h.thread
  message _ := Message.Renewed
  stores _ := Stores.Besides key
  journal _ j j' := env.Backs j.cache ∧ env.Backs j'.cache
  starts := True
  readable kind := operation.party = .sender ∧ kind ≠ operation.kind

section Attempts

open Inquiry

-- An operation that sends a request or a credential looks up messages of other kinds.
theorem Operation.paired_again (env : Environment) (version : Version) (operation : Operation)
    (key : String × String) :
    operation.Paired (env.attempts version operation key) false operation := by
  cases operation with
  | propose => exact .propose trivial ..
  | offer => exact .offer trivial ..
  | answerProposal => exact .answerProposal rfl ..
  | request =>
    refine .request rfl ?_ ..
    exact ⟨rfl, nofun⟩
  | issue =>
    refine .issue rfl ?_ ?_ ..
    · exact ⟨rfl, nofun⟩
    · exact ⟨rfl, nofun⟩
  | acknowledge => exact .acknowledge rfl
  | decline => exact .decline rfl _
  | receive kind inbound => exact .receive kind ⟨.refl _, trivial, rfl, rfl, rfl⟩

variable {env : Environment} {version : Version} {operation : Operation} {key : String × String}

theorem Environment.attempts_record {e e' : Exchange}
    (h : (env.attempts version operation key).Record false e e') : e' = e := by
  obtain ⟨_, hmark, rfl⟩ := h
  rw [← (hmark : e.mark = _), Exchange.under_mark]

theorem Exchange.Renewed.of_record {opened : Bool} {e e' : Exchange}
    (h : (env.attempts version operation key).Record opened e e') : e.Renewed e' := by
  cases opened with
  | false =>
    obtain rfl := Environment.attempts_record h
    rfl
  | true =>
    obtain ⟨mark, ⟨hversion, hupdated⟩, rfl⟩ := h
    rw [Exchange.Renewed, Exchange.under, hversion, hupdated]
    rfl

theorem Environment.attempts_steady (functional : env.Functional) (opened : Bool) :
    (env.attempts version operation key).Steady opened where
  env := rfl
  functional := functional
  external _ := trivial
  backed h := h
  consults _ h h' := ⟨h.backed, h'.backed⟩

theorem Environment.attempts_draws :
    (env.attempts version operation key).Draws false where
  newThread _ := fun _ _ _ _ _ hj => ⟨false, le_refl _, hj, .ok ⟨rfl, trivial⟩⟩
  newRecord role state connection _ := by
    intro s s' j j' _ hj
    refine ⟨true, Bool.false_le true, hj, .ok ?_⟩
    refine .new ?_ role state connection
    exact ⟨rfl, rfl⟩
  reply he := fun _ _ _ _ _ hj => by
    rw [attempts_record he]
    exact ⟨false, le_refl _, hj, .ok rfl⟩

theorem Environment.attempts_composes (n : Bool) :
    (env.attempts version operation key).Composes n where
  opening _ _ := rfl
  propose proposal h := version.propose_renewed h proposal
  offer payload details h := version.offer_renewed h payload details
  request payload h ho := version.request_renewed h ho payload
  issue payload comment h ho := version.issue_renewed h ho payload comment
  ack h := ⟨rfl, h⟩
  problemReport _ _ h := ⟨rfl, h⟩

theorem Environment.attempts_sound (functional : env.Functional) (fills : operation.Fills key) :
    (env.attempts version operation key).Sound false where
  toAsks := (attempts_steady functional false).asks
  shows := by
    rintro a _ rfl
    exact (attempts_steady functional false).asks.call (.get a) rfl
  record? := by
    rintro s s' a _ (hs : s.Besides key s') rfl
    rw [Stores.record?, Stores.record?, hs.records]
    cases s.records.get? a with
    | none => exact .none
    | some e => exact .some ⟨_, rfl, rfl⟩
  listed := by
    rintro s s' thread (hs : s.Besides key s') -
    rw [Stores.onThread, Stores.onThread, hs.records]
    exact List.forall₂_same.2 fun e _ => ⟨_, rfl, rfl⟩
  message? := by
    rintro e e' kind he ⟨own, other⟩
    rw [attempts_record he]
    refine .message? ?_ fun s s' (hs : s.Besides key s') => ?_
    · have hcall := call_comesTo functional (.findMessage e.id (typeUri e.version kind))
      refine ((attempts_steady functional false).related (fun _ => reply_error) hcall hcall rfl).mono
        fun _ _ _ h => ?_
      exact ⟨h.1, trivial⟩
    · rw [Stores.message?, Stores.message?, hs.messages _ (fills.ne own e other)]
      cases s.messages.get? (e.id, typeUri e.version kind) with
      | none => exact .none
      | some stored =>
        refine .some ((Concur.self fun _ _ => trivial).imp (fun _ _ h => h) ?_)
        rintro m _ rfl
        exact .refl m
  toDraws := attempts_draws
  toComposes := attempts_composes false
  error _ := trivial
  id h := congrArg Exchange.Mark.id h
  threadId h := congrArg Exchange.Mark.threadId h.symm
  assertVersion he := by
    rw [attempts_record he]
    exact .self fun _ _ => trivial
  reads h := h.reads rfl fun _ _ => trivial
  later _ h := h

end Attempts

-- The same record is moved again, or a record is opened each time.
inductive Change.Renewed : Change → Change → Prop where
  | opening {e e' : Exchange} {party : Party} {m m' : Message} (record : e.Renewed e')
      (message : m.Renewed m') : Renewed (.opening e party m) (.opening e' party m')
  | moving {e : Exchange} {next : State} {party : Party} {m m' : Message} (message : m.Renewed m') :
      Renewed (.moving e next party m) (.moving e next party m')

namespace Change.Renewed

variable {c c' : Change} (h : c.Renewed c')
include h

theorem next : c'.next = c.next := by
  cases h <;> rfl

theorem message : c.message.Renewed c'.message := by
  cases h with
  | opening _ message | moving message => exact message

theorem record : c.record.Renewed c'.record := by
  cases h with
  | opening record _ => exact record
  | moving _ => rfl

theorem moved {next : State} (hnext : c.next = some next) : c'.record = c.record := by
  cases h with
  | opening => cases hnext
  | moving => rfl

theorem previous : c'.previous = c.previous := by
  cases h <;> rfl

end Change.Renewed

-- What has been planned once is planned again.
theorem Operation.plan_renewed {env : Environment} {version : Version} {operation : Operation}
    {key : String × String} {s s' : Stores} {j j' after : Journal} {c : Change}
    (functional : env.Functional) (fills : operation.Fills key) (besides : s.Besides key s')
    (backed : env.Backs j.cache) (backed' : env.Backs j'.cache)
    (h : operation.plan version env s j = (.ok c, after)) :
    ∃ c' after', operation.plan version env s' j' = (.ok c', after') ∧ c.Renewed c' := by
  have hsound : (env.attempts version operation key).Sound false :=
    Environment.attempts_sound functional fills
  have hpaired := paired_again env version operation key
  obtain ⟨opened, _, _, hconcur⟩ := plan_related hsound hpaired besides ⟨backed, backed'⟩
  change Concur _ _ (operation.plan version env s j).1 (operation.plan version env s' j').1 at hconcur
  rw [h] at hconcur
  rcases hagain : operation.plan version env s' j' with ⟨result, after'⟩
  rw [hagain] at hconcur
  cases hconcur with
  | ok hc =>
    refine ⟨_, after', rfl, ?_⟩
    cases hc with
    | opening he hm => exact .opening (.of_record he) hm
    | moving he hm => exact Environment.attempts_record he ▸ .moving hm

end CredentialIssuance
