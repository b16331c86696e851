import CredentialIssuance.Proofs.Plan
import CredentialIssuance.Proofs.Twin
import Mathlib.Order.CompleteBooleanAlgebra
import Mathlib.Order.CompletePartialOrder

namespace CredentialIssuance

open List (Forall₂)

-- An agent in both families. Nothing that is drawn depends on the family.
def Environment.families (env : Environment) : Pairing Unit where
  env := env
  env' := env
  version := .v1
  version' := .v2
  error _ x y := x.kind = y.kind
  id _ := (· = ·)
  mark _ m m' := m.version = .v1 ∧ m' = { m with version := .v2 }
  thread := (· = ·)
  header _ := (· = ·)
  message _ := Message.Twin
  stores _ := Stores.Twin
  journal _ := Journal.Twin
  starts := True
  readable _ := True

section Records

variable {env : Environment} {e e' : Exchange}

theorem Exchange.Twin.record (h : e.Twin e') : env.families.Record () e e' := by
  obtain ⟨hversion, rfl⟩ := h
  exact ⟨_, ⟨hversion, rfl⟩, rfl⟩

theorem Exchange.Twin.of_record (h : env.families.Record () e e') : e.Twin e' := by
  obtain ⟨_, ⟨hversion, rfl⟩, rfl⟩ := h
  exact ⟨hversion, rfl⟩

theorem Exchange.Twin.assertVersion (h : e.Twin e') :
    Alike (· = ·) (e.assertVersion .v1) (e'.assertVersion .v2) := by
  obtain ⟨hversion, rfl⟩ := h
  rw [Exchange.assertVersion, Exchange.assertVersion, if_pos hversion, if_pos rfl]
  exact .ok rfl

end Records

theorem Error.Renamed.kind {x y : Error} {R : String → String → Prop} (h : x.Renamed R y) :
    x.kind = y.kind := by
  cases h with
  | same => rfl
  | named =>
    cases x with
    | notFound what => cases what <;> rfl
    | invalidMessage fault => cases fault <;> rfl
    | _ => rfl

namespace Inquiry.Related

variable {env : Environment}

theorem call (c : Call) (h : c.tellsFamily = false) :
    Related env.families () (Still () (· = ·)) (call c) (call c) := by
  intro s s' j j' _ (hj : j.Twin j')
  refine ⟨(), le_refl _, hj.append (.same h), ?_⟩
  show Concur _ _ (Inquiry.call c env s j).1 (Inquiry.call c env s' j').1
  rw [Inquiry.call, Inquiry.call, hj.length]
  cases env.answer j.calls.length c with
  | ok a => exact .ok ⟨rfl, rfl⟩
  | error text => exact .error rfl

-- Calls that tell the family fail alike if the collaborator does not look at it.
theorem call_twin {c c' : Call} (h : c.Twin c')
    (failures : ∀ n text, env.answer n c = .error text ↔ env.answer n c' = .error text) :
    Related env.families () (Still () fun _ _ => True) (Inquiry.call c) (Inquiry.call c') := by
  intro s s' j j' _ (hj : j.Twin j')
  refine ⟨(), le_refl _, hj.append h, ?_⟩
  have hfailures := failures j.calls.length
  show Concur _ _ (Inquiry.call c env s j).1 (Inquiry.call c' env s' j').1
  simp only [Inquiry.call, hj.length]
  cases hanswer : env.answer j.calls.length c with
  | error text =>
    rw [(hfailures text).1 hanswer]
    exact .error rfl
  | ok a =>
    cases hanswer' : env.answer j.calls.length c' with
    | error text => cases hanswer.symm.trans ((hfailures text).2 hanswer')
    | ok b => exact .ok ⟨rfl, trivial⟩

-- The cache holds the same, so the ledger is asked in both families or in none.
theorem ledger (artifact : Artifact) (id : String) :
    Related env.families () (Still () (· = ·)) (ledger artifact id) (ledger artifact id) := by
  intro s s' j j' hs (hj : j.Twin j')
  refine ⟨(), le_refl _, ?_⟩
  have hasked : (j.asked (.ledger artifact id)).Twin (j'.asked (.ledger artifact id)) :=
    hj.append (.same rfl)
  show (Inquiry.ledger artifact id env s j).2.Twin (Inquiry.ledger artifact id env s' j').2 ∧
    Concur _ _ (Inquiry.ledger artifact id env s j).1 (Inquiry.ledger artifact id env s' j').1
  simp only [Inquiry.ledger, Cache.lookup, Inquiry.call, hj.cache, hj.length]
  cases j.cache.fresh? env.config.cache (env.clock j.calls.length) artifact id with
  | some value => exact ⟨{ hj with cache := rfl }, .ok ⟨rfl, rfl⟩⟩
  | none =>
    cases env.answer j.calls.length (.ledger artifact id) with
    | error text => exact ⟨{ hasked with cache := rfl }, .error rfl⟩
    | ok value =>
      refine ⟨{ hasked with cache := ?_ }, .ok ⟨rfl, rfl⟩⟩
      simp only [List.length_append, hj.length]

theorem message?_twin (impartial : env.Impartial) {e e' : Exchange} (h : e.Twin e') (kind : Kind) :
    Related env.families () (Still () (Option.Rel Message.Twin)) (Inquiry.message? e kind)
      (Inquiry.message? e' kind) := by
  obtain ⟨hversion, rfl⟩ := h
  refine message? ?_ fun s s' (hs : s.Twin s') => ?_
  · rw [hversion]
    exact call_twin (.findMessage e.id kind) fun n text => by rw [impartial.findMessage n e.id kind]
  · rw [hversion]
    refine (hs.message? e.id kind).imp ?_
    rintro _ _ ⟨m, m', hm, rfl, rfl⟩
    rw [Message.ofJson_toJson hm.plain, Message.ofJson_toJson hm.plain']
    exact .ok hm

end Inquiry.Related

namespace Environment

variable {env : Environment}

theorem families_draws : env.families.Draws () where
  newThread _ := by
    intro s s' j j' _ (hj : j.Twin j')
    exact ⟨(), le_refl _, { hj with threads := congrArg (· + 1) hj.threads },
      .ok ⟨rfl, congrArg env.threadName hj.threads.symm⟩⟩
  newRecord role state connection := by
    intro hthread s s' j j' _ (hj : j.Twin j')
    refine ⟨(), le_refl _, { hj with exchanges := congrArg (· + 1) hj.exchanges }, .ok ?_⟩
    refine .new ?_ role state connection
    cases hthread
    refine ⟨rfl, ?_⟩
    show Exchange.Mark.mk (env.exchangeName j'.exchanges) _ _ (env.now j'.calls.length) _ = _
    rw [hj.exchanges, hj.length]
    rfl
  reply := by
    rintro e _ ⟨_, ⟨-, rfl⟩, rfl⟩ s s' j j' _ (hj : j.Twin j')
    exact ⟨(), le_refl _, { hj with messages := congrArg (· + 1) hj.messages },
      .ok (congrArg (fun n => Header.reply (env.messageName n) _) hj.messages.symm)⟩

theorem families_composes : env.families.Composes () where
  opening := by
    rintro _ thread _ - rfl
    rfl
  propose := by
    rintro _ h _ proposal rfl
    exact Version.propose_twin h proposal
  offer := by
    rintro _ h _ payload details rfl
    exact Version.offer_twin h payload details
  request := by
    rintro _ h _ o o' payload rfl ho
    exact Version.request_twin h payload ho
  issue := by
    rintro _ h _ o o' payload comment rfl -
    exact Version.issue_twin h payload comment o o'
  ack := by
    rintro _ h _ rfl
    exact Version.ack_twin h
  problemReport := by
    rintro _ h _ code text rfl
    exact Version.problemReport_twin h code text

theorem families_reads {m m' : Message} (h : m.Twin m') : env.families.Reads () m m' where
  kind := h.kind
  family := iff_of_true h.second h.first
  comment := h.comment
  preview := h.preview
  definition := h.definition
  payload := h.payload
  fault _ _ := rfl

variable (impartial : env.Impartial)
include impartial

theorem families_sound (n : Unit) : env.families.Sound n where
  config := rfl
  call := Inquiry.Related.call
  ledger := Inquiry.Related.ledger
  shows := by
    rintro a _ rfl
    exact Inquiry.Related.call (.get a) rfl
  record? := by
    rintro s s' a _ (hs : s.Twin s') rfl
    exact (hs.record? a).imp fun _ _ he => he.record
  listed := by
    rintro s s' thread (hs : s.Twin s') -
    exact (hs.onThread thread).imp fun _ _ he => he.record
  message? he _ := .message?_twin impartial (.of_record he) _
  toDraws := families_draws
  toComposes := families_composes
  error h := h.kind
  id := by
    rintro m _ ⟨-, rfl⟩
    rfl
  threadId := by
    rintro m _ ⟨-, rfl⟩
    rfl
  assertVersion he := (Exchange.Twin.of_record he).assertVersion
  reads := families_reads
  later _ h := h

theorem families_lasting : env.families.Lasting where
  sound := families_sound impartial
  readable _ := trivial
  stores _ h := h
  mark _ h := h
  now := by
    intro n s s' j j' _ (hj : j.Twin j')
    refine ⟨(), le_refl _, hj, .ok ⟨rfl, ?_⟩⟩
    rintro a _ ⟨hversion, rfl⟩
    exact ⟨hversion, by rw [hj.length]; rfl⟩
  save := by
    rintro _ a _ m m' party rfl (hm : m.Twin m')
    exact .call_twin (.saveMessage a party hm) fun n text => by
      rw [impartial.saveMessage n a party m m' hm]
  saved := by
    rintro _ a _ m m' s s' party rfl (hm : m.Twin m') (hs : s.Twin s')
    exact hs.putMessage (.saved a party hm)
  put he := by
    have htwin := Exchange.Twin.of_record he
    exact .call_twin (.put htwin) fun n text => by rw [impartial.put n _ _ htwin]
  kept he hs := Stores.Twin.put hs (.of_record he)
  publish _ he hj := Journal.Twin.append hj (.publish ⟨.of_record he, rfl⟩)
  published _ he hs := Stores.Twin.publish hs ⟨.of_record he, rfl⟩

end Environment

theorem Message.Twin.paired {env : Environment} {m m' : Message} (h : m.Twin m')
    (connection : Option Connection) :
    Inbound.Paired env.families () ⟨m, connection⟩ ⟨m', connection⟩ :=
  ⟨h, rfl, h.threadId, h.parentThreadId, rfl⟩

-- An operation of the agent's own choice does not name a family.
theorem Operation.paired_of_sends {env : Environment} {operation : Operation}
    (own : operation.party = .sender) : operation.Paired env.families () operation := by
  cases operation with
  | propose => exact .propose trivial ..
  | offer => exact .offer trivial ..
  | answerProposal => exact .answerProposal rfl ..
  | request => exact .request rfl trivial ..
  | issue => exact .issue rfl trivial trivial ..
  | acknowledge => exact .acknowledge rfl
  | decline => exact .decline rfl _
  | receive => cases own

section Commands

open Inquiry

variable {env : Environment} (impartial : env.Impartial)
include impartial

theorem send_related {m m' : Message} (h : m.Twin m') (connection : Connection) :
    Action.Related env.families () (Still () fun _ _ => True) (Action.send m connection)
      (Action.send m' connection) := by
  refine (Environment.families_lasting impartial).ofInquiry (.call_twin (.send h connection) ?_)
  intro n text
  rw [impartial.send n connection m m' h]

theorem sendOver_related {m m' : Message} (h : m.Twin m') (connection : String) :
    Action.Related env.families () (Still () fun _ _ => True) (sendOver m connection)
      (sendOver m' connection) := by
  have hcall := (Environment.families_lasting impartial).ofInquiry
    (.call (.connection connection) rfl)
  refine .step hcall ?_
  rintro connection _ rfl
  exact send_related impartial h connection

variable {operation : Operation} (own : operation.party = .sender)
include own

theorem deliver_related :
    Action.Related env.families () (fun _ => Exchange.Twin) (deliver .v1 operation)
      (deliver .v2 operation) := by
  have hrun := (Environment.families_lasting impartial).run (Operation.paired_of_sends own)
  refine .bind hrun fun _ outcome outcome' _ h => ?_
  have htwin := Exchange.Twin.of_record h.2
  have hconnection : outcome'.record.connectionId = outcome.record.connectionId := by rw [htwin.2]
  rw [hconnection]
  exact .step (sendOver_related impartial h.1 _) fun _ _ _ => .pure htwin

theorem deliverStored_related (exchange : String) :
    Action.Related env.families () (fun _ => Exchange.Twin) (deliverStored .v1 exchange operation)
      (deliverStored .v2 exchange operation) := by
  have hlasting := Environment.families_lasting impartial
  refine .bind (hlasting.run (Operation.paired_of_sends own)) fun _ outcome outcome' _ h => ?_
  refine .step (hlasting.ofInquiry ((hlasting.sound ()).record rfl)) fun e e' he => ?_
  obtain ⟨hversion, rfl⟩ := Exchange.Twin.of_record he
  exact .step (sendOver_related impartial h.1 _) fun _ _ _ => .pure ⟨hversion, rfl⟩

omit own in
theorem Command.run_related (command : Command) :
    Action.Related env.families () (fun _ => Exchange.Twin) (command.run .v1) (command.run .v2) := by
  cases command with
  | offer connection definition details autoAccept =>
    cases connection with
    | none => exact fun _ _ hs hj => ⟨(), le_refl _, hs, hj, .error rfl⟩
    | some connection => exact deliver_related impartial rfl
  | propose | answerProposal => exact deliver_related impartial rfl
  | _ => exact deliverStored_related impartial rfl _

end Commands

end CredentialIssuance
