import CredentialIssuance.Proofs.Dispatch
import CredentialIssuance.Proofs.Pair
import CredentialIssuance.Proofs.Run
import Mathlib.Logic.Function.Basic

namespace CredentialIssuance

inductive Side where
  | left
  | right
  deriving DecidableEq, Repr

namespace Side

def other : Side → Side
  | .left => .right
  | .right => .left

theorem other_other (side : Side) : side.other.other = side := by
  cases side <;> rfl

theorem other_ne (side : Side) : side.other ≠ side := by
  cases side <;> decide

theorem eq_or_eq_other (side side' : Side) : side' = side ∨ side' = side.other := by
  cases side <;> cases side' <;> decide

end Side

-- The surroundings of each agent, and the connection between the two as each of them knows it.
structure Parties where
  env : Side → Environment
  connection : Side → Connection

-- No agent draws a name twice, and no two agents draw the same name for a thread.
structure Parties.Fresh (p : Parties) : Prop where
  threads : Function.Injective fun draw : Side × Nat => (p.env draw.1).threadName draw.2
  exchanges : ∀ side, Function.Injective (p.env side).exchangeName

-- The worlds of both agents, and all messages for the other one that either has come up with.
structure Joint where
  world : Side → World
  sent : Side → List Message

-- The message that a call of the application gives it to send.
def Outcome.messages : Except Error Outcome → List Message
  | .ok outcome => [outcome.message]
  | .error _ => []

-- The response to a message that has been dispatched, if there is one.
def Outbound.messages : Except Error (Option Outbound) → List Message
  | .ok (some outbound) => [outbound.message]
  | _ => []

namespace Joint

def start : Joint := ⟨fun _ => World.empty, fun _ => []⟩

-- One agent goes on to another world and comes up with messages.
def move (s : Joint) (side : Side) (world : World) (messages : List Message) : Joint :=
  ⟨Function.update s.world side world,
    Function.update s.sent side (s.sent side ++ messages)⟩

def records (s : Joint) (side : Side) : List Exchange := (s.world side).stores.records.entries

end Joint

-- An application calls any operation of its own, naming no connection but the one between the two.
-- What has been sent is delivered by dispatching it, or it is processed alone, so that other calls
-- may come before the call that answers it.
inductive Reachable (p : Parties) : Joint → Prop where
  | start : Reachable p .start
  | call {s : Joint} (reached : Reachable p s) (side : Side) (version : Version)
      (operation : Operation) (own : operation.party = .sender)
      (named : ∀ c ∈ operation.connection?, c = (p.connection side).id) :
      Reachable p (s.move side (operation.run version (p.env side) (s.world side)).2
        (Outcome.messages (operation.run version (p.env side) (s.world side)).1))
  | deliver {s : Joint} (reached : Reachable p s) (side : Side) (m : Message)
      (sent : m ∈ s.sent side.other) :
      Reachable p (s.move side
        (Inbound.dispatch ⟨m, some (p.connection side)⟩ (p.env side) (s.world side)).2
        (Outbound.messages
          (Inbound.dispatch ⟨m, some (p.connection side)⟩ (p.env side) (s.world side)).1))
  | process {s : Joint} (reached : Reachable p s) (side : Side) (m : Message)
      (sent : m ∈ s.sent side.other) :
      Reachable p (s.move side
        ((Operation.receive m.kind ⟨m, some (p.connection side)⟩).run m.version (p.env side)
          (s.world side)).2 [])

namespace Joint

variable {s : Joint} {side : Side} {world : World} {messages : List Message}

@[simp] theorem move_world_self : (s.move side world messages).world side = world :=
  Function.update_self ..

@[simp] theorem move_world_other :
    (s.move side world messages).world side.other = s.world side.other :=
  Function.update_of_ne side.other_ne ..

@[simp] theorem move_sent_self :
    (s.move side world messages).sent side = s.sent side ++ messages :=
  Function.update_self ..

@[simp] theorem move_sent_other :
    (s.move side world messages).sent side.other = s.sent side.other :=
  Function.update_of_ne side.other_ne ..

theorem move_move (world' : World) :
    (s.move side world []).move side world' messages = s.move side world' messages := by
  simp [move, Function.update_idem]

-- What an agent may do next: an operation of its own, or taking in what the other one has sent.
inductive Allowed (p : Parties) (s : Joint) (side : Side) : Operation → Prop where
  | call {operation : Operation} (own : operation.party = .sender)
      (named : ∀ c ∈ operation.connection?, c = (p.connection side).id) :
      Allowed p s side operation
  | receive {m : Message} (sent : m ∈ s.sent side.other) :
      Allowed p s side (.receive m.kind ⟨m, some (p.connection side)⟩)

theorem Allowed.named {p : Parties} {operation : Operation} (h : Allowed p s side operation) :
    ∀ c ∈ operation.connection?, c = (p.connection side).id := by
  cases h with
  | call _ named => exact named
  | receive _ =>
    intro c hc
    exact (Option.some.inj hc).symm

-- One allowed operation. One that takes in a message gives none to send, and what another one
-- gives may also be lost at once.
inductive Moves (p : Parties) (s : Joint) : Joint → Prop where
  | failed {side : Side} {version : Version} {operation : Operation} {x : Error} {after : World}
      (allowed : s.Allowed p side operation)
      (run : operation.run version (p.env side) (s.world side) = (.error x, after)) :
      Moves p s (s.move side after [])
  | done {side : Side} {version : Version} {operation : Operation} {outcome : Outcome}
      {after : World} {messages : List Message} (allowed : s.Allowed p side operation)
      (run : operation.run version (p.env side) (s.world side) = (.ok outcome, after))
      (own : ∀ m ∈ messages, operation.party = .sender ∧ m = outcome.message) :
      Moves p s (s.move side after messages)

section Moves

variable {p : Parties} {operation : Operation}

theorem Moves.call (version : Version) (own : operation.party = .sender)
    (named : ∀ c ∈ operation.connection?, c = (p.connection side).id) :
    s.Moves p (s.move side (operation.run version (p.env side) (s.world side)).2
      (Outcome.messages (operation.run version (p.env side) (s.world side)).1)) := by
  cases hrun : operation.run version (p.env side) (s.world side) with
  | mk result after =>
    cases result with
    | error x => exact .failed (.call own named) hrun
    | ok outcome =>
      refine .done (.call own named) hrun ?_
      intro m hm
      exact ⟨own, List.mem_singleton.1 hm⟩

theorem Moves.process (version : Version) {m : Message} (sent : m ∈ s.sent side.other) :
    s.Moves p (s.move side
      ((Operation.receive m.kind ⟨m, some (p.connection side)⟩).run version (p.env side)
        (s.world side)).2 []) := by
  cases hrun : (Operation.receive m.kind ⟨m, some (p.connection side)⟩).run version (p.env side)
      (s.world side) with
  | mk result after =>
    cases result with
    | error x => exact .failed (.receive sent) hrun
    | ok outcome =>
      refine .done (.receive sent) hrun ?_
      intro m' hm'
      cases hm'

-- The step that answers a message is a call in the world in which the message has been processed.
theorem Moves.followUp (p : Parties) (s : Joint) (side : Side) (version : Version)
    {default : AutoAccept} {kind : Kind} {e : Exchange}
    (follows : followUp? default kind e = some operation) (between : World) :
    (s.move side between []).Moves p
      (s.move side (operation.run version (p.env side) between).2
        (Outcome.messages (operation.run version (p.env side) between).1)) := by
  obtain ⟨hsends, hnone⟩ := followUp?_sends follows
  have hnamed : ∀ c ∈ operation.connection?, c = (p.connection side).id := by
    rw [hnone]
    exact nofun
  have hcall := Moves.call (s := s.move side between []) version hsends hnamed
  rw [move_world_self, move_move] at hcall
  exact hcall

-- A dispatch is one operation or two of them.
theorem moves_of_dispatch {m : Message} (sent : m ∈ s.sent side.other) :
    let result := Inbound.dispatch ⟨m, some (p.connection side)⟩ (p.env side) (s.world side)
    s.Moves p (s.move side result.2 (Outbound.messages result.1)) ∨
      ∃ between, s.Moves p between ∧
        between.Moves p (s.move side result.2 (Outbound.messages result.1)) := by
  intro result
  have hdispatched : Dispatched (p.env side) (s.world side) ⟨m, some (p.connection side)⟩ result :=
    Inbound.dispatch_cases (p.env side) (s.world side) ⟨m, some (p.connection side)⟩
  have hprocess := Moves.process (p := p) m.version sent
  clear_value result
  cases hdispatched with
  | refused received =>
    rw [received] at hprocess
    exact .inl hprocess
  | silent received follows =>
    rw [received] at hprocess
    exact .inl hprocess
  | @unanswered outcome between after operation x received follows answered =>
    rw [received] at hprocess
    have hanswer := Moves.followUp p s side m.version follows between
    rw [answered] at hanswer
    exact .inr ⟨_, hprocess, hanswer⟩
  | unaddressed received follows answered addressed => cases addressed
  | @answered outcome answer between after operation _ _ received follows answered addressed =>
    cases addressed
    rw [received] at hprocess
    have hanswer := Moves.followUp p s side m.version follows between
    rw [answered] at hanswer
    exact .inr ⟨_, hprocess, hanswer⟩

-- Whatever every allowed operation keeps holds of all reachable joint states.
theorem reachable_induction {P : Joint → Prop} (start : P .start)
    (step : ∀ s s', P s → s.Moves p s' → P s') (h : Reachable p s) : P s := by
  induction h with
  | start => exact start
  | call _ side version operation own named ih => exact step _ _ ih (.call version own named)
  | process _ side m sent ih => exact step _ _ ih (.process m.version sent)
  | deliver _ side m sent ih =>
    rcases moves_of_dispatch sent with hone | ⟨between, hfirst, hsecond⟩
    · exact step _ _ ih hone
    · exact step _ _ (step _ _ ih hfirst) hsecond

end Moves

end Joint

end CredentialIssuance
