import CredentialIssuance.Proofs.Carriage
import CredentialIssuance.Proofs.Guards
import CredentialIssuance.Proofs.Operation
import CredentialIssuance.Proofs.Proposal

namespace CredentialIssuance

-- How a message gets from one agent to another one: as it is, as a value or as a text.
inductive Message.Arrives (m : Message) : Message → Prop
  | direct : Arrives m m
  | value {read : Message} (h : ofJson m.toJson = .ok read) : Arrives m read
  | text {read : Message} (h : decode m.toJson.text = .ok read) : Arrives m read

theorem Message.Arrives.eq {m read : Message} (h : m.Arrives read) (encoded : m.body.Encoded) :
    read = m := by
  cases h with
  | direct => rfl
  | value h => exact (Except.ok.inj ((ofJson_toJson (plain_of_encoded encoded)).symm.trans h)).symm
  | text h => exact (Except.ok.inj ((decode_encoded encoded).symm.trans h)).symm

namespace Operation

variable {env : Environment} {before after : World} {version : Version}

-- What a holder stores and sends when it opens a thread with a proposal.
theorem run_propose {connection : String} {p : Proposal} {autoAccept : Option AutoAccept}
    {proposed : Outcome}
    (h : (Operation.propose connection p autoAccept).run version env before = (.ok proposed, after)) :
    proposed.message = version.propose (.opening proposed.record.threadId) p ∧
      proposed.record.attributes = p.attributes ∧ proposed.record.definition = p.terms.definition := by
  obtain ⟨c, journal, hplan, hmessage, hrecord, -⟩ := run_planned h
  obtain ⟨now, rfl, -⟩ := Holder.propose_ok hplan
  rw [show proposed.record = _ from hrecord]
  exact ⟨hmessage, rfl, rfl⟩

section Receive

variable {inbound : Inbound}

-- What an issuer stores that takes in a proposal.
theorem run_receive_proposal {received : Outcome}
    (h : (Operation.receive .propose inbound).run version env before = (.ok received, after)) :
    received.record.role = .issuer ∧ received.record.threadId = inbound.message.threadId ∧
      received.record.attributes = version.attributes inbound.message ∧
      version.proposedDefinition inbound.message = .ok received.record.definition ∧
      after.stores.record? received.record.id = some received.record := by
  obtain ⟨c, journal, hplan, -, hrecord, hstep⟩ := run_planned h
  have hstored := hstep.record? received.record.id
  rw [if_pos rfl] at hstored
  obtain ⟨-, -, line, definition, now, -, hdefinition, -, rfl, -⟩ := Issuer.receiveProposal_ok hplan
  rw [show received.record = _ from hrecord] at hstored ⊢
  exact ⟨rfl, rfl, rfl, hdefinition, hstored⟩

-- A proposal that is due is taken in, unless a collaborator fails.
theorem run_receive_proposal_error {line : Connection} {definition : Option String} {x : Error}
    (hkind : inbound.message.kind = .propose) (hversion : inbound.message.version = version)
    (hready : inbound.ready = .ok line)
    (hdefinition : version.proposedDefinition inbound.message = .ok definition)
    (vacant : ∀ e ∈ before.stores.records.entries,
      ¬ e.Answers inbound.message.threadId (some .issuer) none)
    (h : (Operation.receive .propose inbound).run version env before = (.error x, after)) :
    env.Causes x := by
  have hends : Inquiry.Ends env before.stores (Issuer.receiveProposal version inbound) (fun _ => True)
      env.Causes :=
    Issuer.receiveProposal_ends (fun _ caused => caused) hkind hversion hready hdefinition vacant
  have hplanned := hends before.journal
  rcases run_eq_error h with ⟨journal, hplan, -⟩ | ⟨c, journal, hplan, hcommit⟩
  · rw [show Issuer.receiveProposal version inbound env _ _ = _ from hplan] at hplanned
    exact hplanned
  · obtain ⟨-, -, _, _, _, -, -, -, rfl, -⟩ := Issuer.receiveProposal_ok hplan
    rcases Change.commit_error_cases hcommit with hcaused | ⟨_, hnext, -⟩
    · exact hcaused
    · cases hnext

end Receive

-- A proposal is read as it was written. So the issuer records what the holder has proposed, and if
-- the line is complete and the issuer has no record on the thread, nothing but a collaborator keeps
-- it from that.
theorem proposal_received (version : Version) :
    (∀ (header : Header) (p : Proposal) (read : Message), (version.propose header p).Arrives read →
      version.proposedDefinition read = .ok p.terms.definition ∧
        version.preview read = if p.attributes = [] then none else some p.attributes) ∧
    (∀ (header : Header) (p : Proposal),
      let m := version.propose header p
      Message.ofJson m.toJson = .ok m ∧ Message.decode m.toJson.text = .ok m) ∧
    ∀ (env : Environment) (before after : World) (connection : String) (p : Proposal)
      (autoAccept : Option AutoAccept) (proposed : Outcome),
      (Operation.propose connection p autoAccept).run version env before = (.ok proposed, after) →
      ∀ read, proposed.message.Arrives read →
      ∀ (env' : Environment) (before' after' : World) (line : Option Connection)
        (result : Except Error Outcome),
        (Operation.receive .propose ⟨read, line⟩).run version env' before' = (result, after') →
        (∀ received, result = .ok received →
          received.record.role = .issuer ∧
            received.record.threadId = proposed.record.threadId ∧
            received.record.attributes = proposed.record.attributes ∧
            received.record.definition = proposed.record.definition ∧
            after'.stores.record? received.record.id = some received.record) ∧
        ((∃ c, line = some c ∧ c.state = .complete) →
          (∀ e ∈ before'.stores.records.entries,
            e.threadId = proposed.record.threadId → e.role ≠ .issuer) →
          (∃ received, result = .ok received) ∨ ∃ x, result = .error x ∧ env'.Causes x) := by
  have hencoded (header : Header) (p : Proposal) : (version.propose header p).body.Encoded :=
    (Draft.propose p).encoded version header
  refine ⟨fun header p read arrives => ?read, fun header p => ?wire, ?received⟩
  case read =>
    rw [arrives.eq (hencoded header p)]
    exact ⟨version.proposedDefinition_propose header p, version.preview_propose header p⟩
  case wire =>
    exact ⟨Message.ofJson_toJson (Message.plain_of_encoded (hencoded header p)),
      Message.decode_encoded (hencoded header p)⟩
  case received =>
    intro env before after connection p autoAccept proposed hproposed read arrives env' before' after'
      line result hreceived
    obtain ⟨hmessage, hattributes, hdefinition⟩ := run_propose hproposed
    rw [hmessage] at arrives
    have hread := arrives.eq (hencoded _ p)
    obtain ⟨hproposes, hheader⟩ := version.propose_is (.opening proposed.record.threadId) p
    have hthread : read.threadId = proposed.record.threadId := by
      rw [hread]
      exact Message.threadId_opening hheader
    have hnamed : version.proposedDefinition read = .ok p.terms.definition := by
      rw [hread]
      exact version.proposedDefinition_propose _ p
    refine ⟨?_, ?_⟩
    · rintro received rfl
      obtain ⟨hrole, hthread', hattributes', hdefinition', hstored⟩ := run_receive_proposal hreceived
      refine ⟨hrole, hthread'.trans hthread, ?_, ?_, hstored⟩
      · rw [hattributes, hattributes', hread, version.attributes_propose]
      · exact (Except.ok.inj (hnamed.symm.trans hdefinition')).symm.trans hdefinition.symm
    · rintro ⟨c, rfl, complete⟩ vacant
      cases result with
      | ok received => exact .inl ⟨received, rfl⟩
      | error x =>
        have hkind : read.kind = .propose := hread ▸ hproposes
        have hversion : read.version = version := hread ▸ version.propose_version _ p
        refine .inr ⟨x, rfl, run_receive_proposal_error hkind hversion
          (Inbound.ready_of_complete complete) hnamed ?_ hreceived⟩
        rintro e he ⟨hsame, hrole, -⟩
        exact vacant e he (hsame.trans hthread) (hrole _ rfl)

-- A proposal of the second family that names a definition with a quote in it.
theorem proposal_received_quoted :
    let terms : Terms := ⟨some "\"é\\", none, none, none, none, some "\n"⟩
    let p : Proposal := { Proposal.blank with terms, attributes := [⟨"name", none, "Zoë"⟩] }
    let line : Connection := ⟨"line", "did", "their-did", .complete⟩
    ∃ proposed sent received after,
      (Operation.propose "line" p none).run .v2 (.steady 't') World.empty = (.ok proposed, sent) ∧
      (Operation.receive .propose ⟨proposed.message, some line⟩).run .v2 (.steady 'u') World.empty =
        (.ok received, after) ∧
      received.record.role = .issuer ∧ received.record.threadId = proposed.record.threadId ∧
      received.record.attributes = p.attributes ∧ received.record.definition = terms.definition := by
  intro terms p line
  obtain ⟨proposed, sent, holder⟩ : ∃ proposed sent,
      (Operation.propose "line" p none).run .v2 (.steady 't') World.empty = (.ok proposed, sent) :=
    ⟨_, _, rfl⟩
  obtain ⟨-, hlisted, hnamed⟩ := run_propose holder
  cases issuer : (Operation.receive .propose ⟨proposed.message, some line⟩).run .v2 (.steady 'u')
    World.empty with
  | mk result after =>
    obtain ⟨-, -, hreceived⟩ := proposal_received .v2
    obtain ⟨hrecord, htaken⟩ := hreceived _ _ _ _ _ _ _ holder _ .direct _ _ _ _ _ issuer
    obtain ⟨received, rfl⟩ | ⟨x, -, n, call, text, hanswer, -⟩ := htaken ⟨line, rfl, rfl⟩
      fun e he => absurd he List.not_mem_nil
    · obtain ⟨hrole, hthread, hattributes, hdefinition, -⟩ := hrecord received rfl
      exact ⟨proposed, sent, received, after, holder, issuer, hrole, hthread,
        hattributes.trans hlisted, hdefinition.trans hnamed⟩
    · cases call <;> cases hanswer

end Operation

end CredentialIssuance
