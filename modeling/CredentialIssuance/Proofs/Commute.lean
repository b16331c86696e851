import CredentialIssuance.Proofs.Rerun
import Mathlib.Logic.Equiv.Defs

namespace CredentialIssuance

open List (Forall₂)

-- Two runs of numbers, one after the other, change places.
def swapRuns (start first second : Nat) : Equiv.Perm Nat where
  toFun n :=
    if n < start ∨ start + first + second ≤ n then n
    else if n < start + first then n + second
    else n - first
  invFun n :=
    if n < start ∨ start + first + second ≤ n then n
    else if n < start + second then n + first
    else n - second
  left_inv n := by
    dsimp only
    split_ifs <;> omega
  right_inv n := by
    dsimp only
    split_ifs <;> omega

section SwapRuns

variable {start first second i : Nat}

theorem swapRuns_apply (n : Nat) : swapRuns start first second n =
    if n < start ∨ start + first + second ≤ n then n
    else if n < start + first then n + second
    else n - first := rfl

theorem swapRuns_first (hi : i < first) :
    swapRuns start first second (start + i) = start + second + i := by
  rw [swapRuns_apply, if_neg (by omega), if_pos (by omega)]
  omega

theorem swapRuns_second (hi : i < second) :
    swapRuns start first second (start + first + i) = start + i := by
  rw [swapRuns_apply, if_neg (by omega), if_neg (by omega)]
  omega

theorem swapRuns_moves {n : Nat} (hn : swapRuns start first second n ≠ n) :
    start ≤ n ∧ n < start + first + second := by
  rw [swapRuns_apply] at hn
  split_ifs at hn <;> omega

end SwapRuns

-- Only names that have been drawn between two points change places.
structure Journal.Reorders (before after : Journal) (exchanges messages : Equiv.Perm Nat) :
    Prop where
  exchanges : ∀ n, exchanges n ≠ n → before.exchanges ≤ n ∧ n < after.exchanges
  messages : ∀ n, messages n ≠ n → before.messages ≤ n ∧ n < after.messages

-- A name that is generated stands for the one that is generated in its place. The clock may show
-- any of its later times in the place of another one.
def Environment.reordering (env : Environment) (j : Journal) (exchanges messages : Equiv.Perm Nat) :
    Renaming where
  exchange a b :=
    (∃ n, a = env.exchangeName n ∧ b = env.exchangeName (exchanges n)) ∨
      b = a ∧ ∀ n, a ≠ env.exchangeName n
  message a b :=
    ∃ n, j.messages ≤ n ∧ a = env.messageName n ∧ b = env.messageName (messages n)
  time := Anew env.now j.calls.length

namespace Task

-- What the second task leaves behind.
def both (first second : Task) (env : Environment) (w : World) : World :=
  (second.run env (first.run env w).2).2

-- The two orders of two tasks, the first one on thread `t` and the second one on thread `u`. Each
-- task ends alike, and the events of the two are only interleaved in another way.
structure Commute (first second : Task) (t u : String) (env : Environment) (r : Renaming)
    (w : World) : Prop where
  result : Agree r (first.run env w).1 (first.run env (second.run env w).2).1
  result' : Agree r (second.run env (first.run env w).2).1 (second.run env w).1
  stores : (first.both second env w).stores.Renamed r (second.both first env w).stores
  events : ∃ ours theirs ours' theirs',
    (first.both second env w).stores.events = w.stores.events ++ ours ++ theirs ∧
    (second.both first env w).stores.events = w.stores.events ++ theirs' ++ ours' ∧
    Forall₂ (Event.Renamed r) ours ours' ∧ Forall₂ (Event.Renamed r) theirs theirs' ∧
    (∀ event ∈ ours, event.exchange.threadId = t) ∧ ∀ event ∈ theirs, event.exchange.threadId = u

end Task

-- A name that has not been drawn by then is not touched.
theorem World.Unclaimed.untouched {env : Environment} {w after : World} {thread : String}
    (unclaimed : w.Unclaimed env) (names : Function.Injective env.exchangeName) {n : Nat}
    (hn : w.journal.exchanges ≤ n) (hlater : after.journal.exchanges ≤ n) :
    env.exchangeName n ∉ w.Touched env thread after := by
  rintro (⟨e, hstored, -⟩ | ⟨m, -, hm, hname⟩)
  · cases (unclaimed n hn).symm.trans hstored
  · have hsame := names hname
    omega

-- Two tasks on different threads that an agent has before it.
structure Errands where
  env : Environment
  start : World
  first : Task
  second : Task
  t : String
  u : String
  functional : env.Functional
  overlooks : env.Overlooks (env.anew start.journal)
  names : Function.Injective env.exchangeName
  settled : start.Settled env
  unfiled : start.Unfiled env
  apart : t ≠ u
  first_on : first.On t start.stores
  second_on : second.On u start.stores

namespace Errands

variable (x : Errands)

def swap : Errands where
  env := x.env
  start := x.start
  first := x.second
  second := x.first
  t := x.u
  u := x.t
  functional := x.functional
  overlooks := x.overlooks
  names := x.names
  settled := x.settled
  unfiled := x.unfiled
  apart := x.apart.symm
  first_on := x.second_on
  second_on := x.first_on

def between : World := (x.first.run x.env x.start).2

def last : World := (x.second.run x.env x.between).2

theorem first_confined : x.start.Confined x.env x.t x.between :=
  (x.first.confined x.functional x.names x.settled x.first_on).1

theorem between_settled : x.between.Settled x.env :=
  (x.first.confined x.functional x.names x.settled x.first_on).2

-- What is on the other thread is not touched by the first task.
theorem untouched {e : Exchange} (he : e ∈ x.start.stores.onThread x.u) :
    e.id ∉ x.start.Touched x.env x.t x.between := by
  obtain ⟨hstored, hthread⟩ := Stores.mem_onThread_iff.1 he
  refine World.not_touched (fun e' hstored' hthread' => ?_) (fun n hn hname => ?_) x.between
  · cases hstored.symm.trans hstored'
    exact x.apart (hthread'.symm.trans hthread)
  · cases (hname ▸ x.settled.unclaimed n hn).symm.trans hstored

theorem between_onThread : x.between.stores.onThread x.u = x.start.stores.onThread x.u :=
  x.first_confined.elsewhere x.u x.apart.symm

theorem second_on_between : x.second.On x.u x.between.stores := by
  have hon := x.second_on
  cases hsecond : x.second with
  | dispatch inbound =>
    rw [hsecond] at hon
    exact hon
  | operate version operation =>
    rw [hsecond] at hon
    rcases Operation.On.cases hon with ⟨kind, inbound, rfl, hthread⟩ | ⟨e, named, hstored, hthread⟩
    · exact hthread
    · have he : e ∈ x.start.stores.onThread x.u := Stores.mem_onThread_iff.2 ⟨hstored, hthread⟩
      refine .of_named named ?_ hthread
      rw [x.first_confined.record? e.id (x.untouched he), hstored]

theorem second_confined : x.between.Confined x.env x.u x.last :=
  (x.second.confined x.functional x.names x.between_settled x.second_on_between).1

-- The second task is done after the first one, and without it.
def again : Rerun := ⟨x.env, x.second, x.u, x.start.journal, x.between, x.start⟩

theorem again_ready : x.again.Ready where
  functional := x.functional
  overlooks := x.overlooks
  names := x.names
  earlier := x.first.run_grows x.env x.start
  earlier' := .refl _
  onThread := x.between_onThread.symm
  messages e he type := by
    have hstart : e ∈ x.start.stores.onThread x.u := x.between_onThread ▸ he
    exact (x.first_confined.messages e.id (x.untouched hstart) type).symm
  vacant n hn := by
    have hstart := Nat.le_trans x.first_confined.exchanges hn
    have huntouched : x.env.exchangeName n ∉ x.start.Touched x.env x.t x.between :=
      x.settled.unclaimed.untouched x.names hstart hn
    exact ⟨x.between_settled.unclaimed n hn, fun type =>
      (x.first_confined.messages _ huntouched type).trans (x.unfiled n hstart type)⟩
  vacant' n hn := ⟨x.settled.unclaimed n hn, x.unfiled n hn⟩
  backed := x.between_settled.backed
  backed' := x.settled.backed

-- The first task is done before the second one, and after it.
def firstAgain : Rerun := x.swap.again.symm

theorem firstAgain_ready : x.firstAgain.Ready := x.swap.again_ready.symm

-- A name that neither of the tasks touches.
structure Elsewhere (id : String) : Prop where
  thread : ∀ e, x.start.stores.record? id = some e → e.threadId ≠ x.t ∧ e.threadId ≠ x.u
  undrawn : ∀ n, x.start.journal.exchanges ≤ n → n < x.last.journal.exchanges →
    x.env.exchangeName n ≠ id

variable {x} {id : String}

namespace Elsewhere

theorem first (h : x.Elsewhere id) : id ∉ x.start.Touched x.env x.t x.between := by
  rintro (⟨e, hstored, hthread⟩ | ⟨n, hn, hlast, hname⟩)
  · exact (h.thread e hstored).1 hthread
  · exact h.undrawn n hn (Nat.lt_of_lt_of_le hlast x.second_confined.exchanges) hname

theorem second (h : x.Elsewhere id) : id ∉ x.between.Touched x.env x.u x.last := by
  rintro (⟨e, hstored, hthread⟩ | ⟨n, hn, hlast, hname⟩)
  · rw [x.first_confined.record? id h.first] at hstored
    exact (h.thread e hstored).2 hthread
  · exact h.undrawn n (Nat.le_trans x.first_confined.exchanges hn) hlast hname

theorem record? (h : x.Elsewhere id) : x.last.stores.record? id = x.start.stores.record? id := by
  rw [x.second_confined.record? id h.second, x.first_confined.record? id h.first]

theorem messages (h : x.Elsewhere id) (type : String) :
    x.last.stores.messages.get? (id, type) = x.start.stores.messages.get? (id, type) := by
  rw [x.second_confined.messages id h.second, x.first_confined.messages id h.first]

theorem swap (h : x.Elsewhere id) (drawn : x.swap.last.journal.exchanges = x.last.journal.exchanges) :
    x.swap.Elsewhere id where
  thread e hstored := (h.thread e hstored).symm
  undrawn n hn hlast := h.undrawn n hn (drawn ▸ hlast)

end Elsewhere

-- What becomes of the two runs of each task, if the first one draws `m` names and the second one
-- `n`.
structure Runs (x : Errands) (m n : Nat × Nat) : Prop where
  first : x.firstAgain.Meets m x.between.stores x.swap.last.stores
  second : x.again.Meets n x.last.stores x.swap.between.stores
  paces : x.firstAgain.Paces m x.between.journal x.swap.last.journal
  paces' : x.again.Paces n x.last.journal x.swap.between.journal
  result : Task.Agree (x.firstAgain.naming m) (x.first.run x.env x.start).1
    (x.first.run x.env x.swap.between).1
  result' : Task.Agree (x.again.naming n) (x.second.run x.env x.between).1
    (x.second.run x.env x.start).1

theorem exists_runs (x : Errands) : ∃ m n, x.Runs m n := by
  obtain ⟨m, hfirst, hpaces, hresult⟩ := x.firstAgain_ready.run x.first_on
  obtain ⟨n, hsecond, hpaces', hresult'⟩ := x.again_ready.run x.second_on_between
  exact ⟨m, n, hfirst, hsecond, hpaces, hpaces', hresult, hresult'⟩

-- The names of the first task and those of the second one change places.
def reordering (x : Errands) (m n : Nat × Nat) : Renaming :=
  x.env.reordering x.start.journal (swapRuns x.start.journal.exchanges m.1 n.1)
    (swapRuns x.start.journal.messages m.2 n.2)

-- Names that are in use at the start stay what they are.
theorem reordering_self {m n : Nat × Nat} (h : ∀ k, x.start.journal.exchanges ≤ k →
    x.env.exchangeName k ≠ id) : (x.reordering m n).exchange id id := by
  by_cases hname : ∃ k, id = x.env.exchangeName k
  · obtain ⟨k, rfl⟩ := hname
    refine .inl ⟨k, rfl, congrArg _ ?_⟩
    have hk : k < x.start.journal.exchanges := by
      by_contra hle
      exact h k (Nat.le_of_not_lt hle) rfl
    rw [swapRuns_apply, if_pos (.inl hk)]
  · exact .inr ⟨rfl, fun k hk => hname ⟨k, hk⟩⟩

theorem reordering_stored {m n : Nat × Nat} {thread : String} {e : Exchange}
    (he : e ∈ x.start.stores.onThread thread) : (x.reordering m n).exchange e.id e.id := by
  refine reordering_self fun k hk hname => ?_
  cases (hname ▸ x.settled.unclaimed k hk).symm.trans (Stores.mem_onThread_iff.1 he).1

namespace Runs

variable {m n : Nat × Nat} (h : x.Runs m n)
include h

theorem between_drawn : x.between.journal.exchanges = x.start.journal.exchanges + m.1 :=
  h.paces.exchanges

theorem last_drawn : x.last.journal.exchanges = x.start.journal.exchanges + m.1 + n.1 :=
  h.paces'.exchanges.trans (congrArg (· + n.1) h.between_drawn)

theorem swap_between_drawn :
    x.firstAgain.start'.journal.exchanges = x.start.journal.exchanges + n.1 :=
  h.paces'.exchanges'

theorem swap_last_drawn : x.swap.last.journal.exchanges = x.last.journal.exchanges := by
  have hlast : x.swap.last.journal.exchanges = x.firstAgain.start'.journal.exchanges + m.1 :=
    h.paces.exchanges'
  rw [hlast, h.swap_between_drawn, h.last_drawn]
  omega

theorem first_within : (x.firstAgain.naming m).Within (x.reordering m n) where
  exchange := by
    rintro a b (⟨rfl, e, he, rfl⟩ | ⟨i, hi, rfl, rfl⟩)
    · exact reordering_stored he
    · refine .inl ⟨_, rfl, congrArg _ ?_⟩
      rw [h.swap_between_drawn]
      exact (swapRuns_first hi).symm
  message := by
    rintro a b ⟨i, hi, rfl, rfl⟩
    refine ⟨_, Nat.le_add_right _ i, rfl, congrArg _ ?_⟩
    have hstart : x.firstAgain.start'.journal.messages = x.start.journal.messages + n.2 :=
      h.paces'.messages'
    rw [hstart]
    exact (swapRuns_first hi).symm
  time _ _ htime := htime

theorem second_within : (x.again.naming n).Within (x.reordering m n) where
  exchange := by
    rintro a b (⟨rfl, e, he, rfl⟩ | ⟨i, hi, rfl, rfl⟩)
    · have hstart : e ∈ x.start.stores.onThread x.u := x.between_onThread ▸ he
      exact reordering_stored hstart
    · refine .inl ⟨x.between.journal.exchanges + i, rfl, congrArg _ ?_⟩
      rw [h.between_drawn, swapRuns_second hi]
      rfl
  message := by
    rintro a b ⟨i, hi, rfl, rfl⟩
    have hstart : x.between.journal.messages = x.start.journal.messages + m.2 := h.paces.messages
    refine ⟨x.between.journal.messages + i, by omega, rfl, congrArg _ ?_⟩
    rw [hstart, swapRuns_second hi]
    rfl
  time _ _ htime := htime

omit h in
-- What is not drawn by the two tasks is on one of their threads or touched by neither.
theorem sort_self {a : String} (hundrawn : ∀ k, x.start.journal.exchanges ≤ k →
    k < x.last.journal.exchanges → x.env.exchangeName k ≠ a) :
    (x.firstAgain.naming m).exchange a a ∨ (x.again.naming n).exchange a a ∨ x.Elsewhere a := by
  cases hstored : x.start.stores.record? a with
  | none =>
    refine .inr (.inr ⟨fun e he => ?_, hundrawn⟩)
    cases hstored.symm.trans he
  | some e =>
    obtain ⟨hmem, rfl⟩ := Stores.record?_eq_some_iff.1 hstored
    by_cases ht : e.threadId = x.t
    · exact .inl (.inl ⟨rfl, e, Stores.mem_onThread.2 ⟨hmem, ht⟩, rfl⟩)
    by_cases hu : e.threadId = x.u
    · have he : e ∈ x.start.stores.onThread x.u := Stores.mem_onThread.2 ⟨hmem, hu⟩
      exact .inr (.inl (.inl ⟨rfl, e, x.between_onThread.symm ▸ he, rfl⟩))
    refine .inr (.inr ⟨fun e' he' => ?_, hundrawn⟩)
    cases hstored.symm.trans he'
    exact ⟨ht, hu⟩

-- A name belongs to the first task, to the second one or to neither.
theorem sort {a b : String} (hab : (x.reordering m n).exchange a b) :
    (x.firstAgain.naming m).exchange a b ∨ (x.again.naming n).exchange a b ∨
      b = a ∧ x.Elsewhere a := by
  have hself {a : String} (hundrawn : ∀ k, x.start.journal.exchanges ≤ k →
      k < x.last.journal.exchanges → x.env.exchangeName k ≠ a) :
      (x.firstAgain.naming m).exchange a a ∨ (x.again.naming n).exchange a a ∨
        a = a ∧ x.Elsewhere a := (sort_self hundrawn).imp_right (.imp_right (.intro rfl))
  have hlast := h.last_drawn
  obtain ⟨k, rfl, rfl⟩ | ⟨rfl, hname⟩ := hab
  · by_cases hk : k < x.start.journal.exchanges ∨ x.last.journal.exchanges ≤ k
    · rw [swapRuns_apply, if_pos (hlast ▸ hk)]
      refine hself fun k' hk' hk'' hsame => ?_
      have hnumber := x.names hsame
      omega
    · obtain ⟨hstart, hend⟩ := not_or.1 hk
      by_cases hfirst : k < x.start.journal.exchanges + m.1
      · obtain ⟨i, rfl⟩ := Nat.exists_eq_add_of_le (Nat.le_of_not_lt hstart)
        have hi : i < m.1 := by omega
        refine .inl (.inr ⟨i, hi, rfl, congrArg _ ?_⟩)
        rw [h.swap_between_drawn, swapRuns_first hi]
      · obtain ⟨i, rfl⟩ := Nat.exists_eq_add_of_le (Nat.le_of_not_lt hfirst)
        have hi : i < n.1 := by omega
        refine .inr (.inl (.inr ⟨i, hi, congrArg _ ?_, congrArg _ (swapRuns_second hi)⟩))
        exact congrArg (· + i) h.between_drawn.symm
  · exact hself fun k _ _ hsame => hname k hsame.symm

-- What belongs to one task is not touched by the other one after it.
theorem first_untouched {a b : String} (hab : (x.firstAgain.naming m).exchange a b) :
    a ∉ x.between.Touched x.env x.u x.last :=
  (x.firstAgain_ready.untouched h.first h.paces hab x.apart.symm x.last).1

theorem second_untouched {a b : String} (hab : (x.again.naming n).exchange a b) :
    b ∉ x.swap.between.Touched x.env x.t x.swap.last :=
  (x.again_ready.untouched h.second h.paces' hab x.apart x.swap.last).2

theorem stores : x.last.stores.Renamed (x.reordering m n) x.swap.last.stores where
  record? a b hab := by
    rcases h.sort hab with hfirst | hsecond | ⟨rfl, helse⟩
    · rw [x.second_confined.record? a (h.first_untouched hfirst)]
      exact (h.first.records hfirst).imp fun _ _ he => he.renamed.mono h.first_within
    · rw [x.swap.second_confined.record? b (h.second_untouched hsecond)]
      exact (h.second.records hsecond).imp fun _ _ he => he.renamed.mono h.second_within
    · rw [helse.record?, (helse.swap h.swap_last_drawn).record?]
      show Option.Rel _ (x.start.stores.record? b) (x.start.stores.record? b)
      cases hstored : x.start.stores.record? b with
      | none => exact .none
      | some e =>
        obtain ⟨-, rfl⟩ := Stores.record?_eq_some_iff.1 hstored
        exact .some (.refl hab .same)
  messages a b type hab := by
    rcases h.sort hab with hfirst | hsecond | ⟨rfl, helse⟩
    · rw [x.second_confined.messages a (h.first_untouched hfirst)]
      exact (h.first.messages hfirst type).imp fun _ _ hm => hm.mono h.first_within
    · rw [x.swap.second_confined.messages b (h.second_untouched hsecond)]
      exact (h.second.messages hsecond type).imp fun _ _ hm => hm.mono h.second_within
    · rw [helse.messages, (helse.swap h.swap_last_drawn).messages]
      exact StoredMessage.Renamed.self hab x.start.stores type
  onThread thread := by
    by_cases ht : thread = x.t
    · subst ht
      rw [x.second_confined.elsewhere x.t x.apart]
      exact h.first.listed.imp fun _ _ he => he.renamed.mono h.first_within
    by_cases hu : thread = x.u
    · subst hu
      rw [x.swap.second_confined.elsewhere x.u x.apart.symm]
      exact h.second.listed.imp fun _ _ he => he.renamed.mono h.second_within
    rw [x.second_confined.elsewhere thread hu, x.first_confined.elsewhere thread ht,
      x.swap.second_confined.elsewhere thread ht, x.swap.first_confined.elsewhere thread hu]
    show Forall₂ _ (x.start.stores.onThread thread) (x.start.stores.onThread thread)
    exact List.forall₂_same.2 fun e he => .refl (reordering_stored he) .same

theorem last_drawn_messages : x.last.journal.messages = x.start.journal.messages + m.2 + n.2 :=
  h.paces'.messages.trans (congrArg (· + n.2) h.paces.messages)

theorem reorders : x.start.journal.Reorders x.last.journal
    (swapRuns x.start.journal.exchanges m.1 n.1) (swapRuns x.start.journal.messages m.2 n.2) where
  exchanges _ hmoved := h.last_drawn ▸ swapRuns_moves hmoved
  messages _ hmoved := h.last_drawn_messages ▸ swapRuns_moves hmoved

theorem agree : x.first.Commute x.second x.t x.u x.env (x.reordering m n) x.start where
  result := h.result.mono h.first_within
  result' := h.result'.mono h.second_within
  stores := h.stores
  events := by
    obtain ⟨ours, ours', hours, hours', hevents, hthread⟩ := h.first.events
    obtain ⟨theirs, theirs', htheirs, htheirs', hevents', hthread'⟩ := h.second.events
    refine ⟨ours, theirs, ours', theirs', ?_, ?_, ?_, ?_, hthread, hthread'⟩
    · exact htheirs.trans (congrArg (· ++ theirs) hours)
    · exact hours'.trans (congrArg (· ++ ours') htheirs')
    · exact hevents.imp fun _ _ hevent => hevent.mono h.first_within
    · exact hevents'.imp fun _ _ hevent => hevent.mono h.second_within

end Runs

end Errands

namespace Task

-- Where a store refuses the name "ee", whichever task comes first fails.
example :
    let env : Environment := { Environment.steady 'a' with
      answer := fun n call =>
        match call with
        | .put e => if e.id = "ee" then .error "refused" else .ok ()
        | call => (Environment.steady 'a').answer n call }
    let w := env.live World.empty [.arriving (.openingProposal "first") "connection"]
    let first : Task := .dispatch ⟨.openingProposal "second", some (.complete "connection")⟩
    let second : Task := .dispatch ⟨.openingOffer "third", some (.complete "connection")⟩
    (first.run env w).1.isOk = false ∧ (first.run env (second.run env w).2).1.isOk = true := by
  decide +kernel

end Task

end CredentialIssuance
