import CredentialIssuance.Agent.Response
import CredentialIssuance.Proofs.Inquiry
import Mathlib.Data.List.Forall2
import Mathlib.Order.Defs.PartialOrder

theorem Option.Rel.imp {α β : Type} {R S : α → β → Prop} (h : ∀ a b, R a b → S a b)
    {x : Option α} {y : Option β} (hxy : Option.Rel R x y) : Option.Rel S x y := by
  cases hxy with
  | some hab => exact .some (h _ _ hab)
  | none => exact .none

namespace CredentialIssuance

open List (Forall₂)

namespace Table

variable {α β κ : Type} [DecidableEq κ] {R : α → β → Prop} {key : α → κ} {key' : β → κ}
  {entries : List α} {entries' : List β}

-- Related entries stay related if related ones are put in, where the relation keeps keys apart.
theorem forall₂_upsert (keys : ∀ a b c d, R a b → R c d → (key a = key c ↔ key' b = key' d))
    (h : Forall₂ R entries entries') {new : α} {new' : β} (hnew : R new new') :
    Forall₂ R (upsert key new entries) (upsert key' new' entries') := by
  induction h with
  | nil => exact .cons hnew .nil
  | @cons old old' _ _ hold hrest ih =>
    have hkeys := keys old old' new new' hold hnew
    unfold upsert
    by_cases hsame : key old = key new
    · rw [if_pos hsame, if_pos (hkeys.1 hsame)]
      exact .cons hnew hrest
    · rw [if_neg hsame, if_neg fun hsame' => hsame (hkeys.2 hsame')]
      exact .cons hold ih

theorem rel_find? {p : α → Bool} {q : β → Bool} (same : ∀ a b, R a b → p a = q b)
    (h : Forall₂ R entries entries') : Option.Rel R (entries.find? p) (entries'.find? q) := by
  induction h with
  | nil => exact .none
  | @cons a b rest rest' hab hrest ih =>
    have hsame := same a b hab
    cases hp : p a with
    | true =>
      rw [List.find?_cons_of_pos hp, List.find?_cons_of_pos (hsame ▸ hp)]
      exact .some hab
    | false =>
      rw [List.find?_cons_of_neg (by simp [hp]), List.find?_cons_of_neg (by simp [← hsame, hp])]
      exact ih

end Table

-- Both succeed, with results that are related, or both fail, with errors that are.
inductive Concur {α β : Type} (E : Error → Error → Prop) (R : α → β → Prop) :
    Except Error α → Except Error β → Prop where
  | ok {a : α} {b : β} (h : R a b) : Concur E R (.ok a) (.ok b)
  | error {x y : Error} (h : E x y) : Concur E R (.error x) (.error y)

section Concur

variable {α β : Type} {E F : Error → Error → Prop} {R S : α → β → Prop} {x : Except Error α}
  {y : Except Error β}

theorem Concur.imp (errors : ∀ e e', E e e' → F e e') (results : ∀ a b, R a b → S a b)
    (h : Concur E R x y) : Concur F S x y := by
  cases h with
  | ok hab => exact .ok (results _ _ hab)
  | error hxy => exact .error (errors _ _ hxy)

theorem Concur.self (h : ∀ e, x = .error e → E e e) : Concur E (· = ·) x x := by
  cases hx : x with
  | ok a => exact .ok rfl
  | error e => exact .error (h e hx)

end Concur

namespace Error

-- The record that an error names.
def exchange? : Error → Option String
  | .invalidState id _ _ | .invalidRole id _ _ | .versionMismatch id _ _ => some id
  | .notFound (.exchange id) | .notFound (.message _ id) | .notFound (.requestMetadata id) => some id
  | .invalidMessage (.threadTaken _ id) | .invalidMessage (.noDefinition id) => some id
  | _ => none

-- The same error about another record.
def about (id : String) : Error → Error
  | .invalidState _ current expected => .invalidState id current expected
  | .invalidRole _ current expected => .invalidRole id current expected
  | .versionMismatch _ current expected => .versionMismatch id current expected
  | .notFound (.exchange _) => .notFound (.exchange id)
  | .notFound (.message kind _) => .notFound (.message kind id)
  | .notFound (.requestMetadata _) => .notFound (.requestMetadata id)
  | .invalidMessage (.threadTaken thread _) => .invalidMessage (.threadTaken thread id)
  | .invalidMessage (.noDefinition _) => .invalidMessage (.noDefinition id)
  | x => x

-- The same error, but for the name of the record that it is about.
inductive Renamed (R : String → String → Prop) : Error → Error → Prop where
  | same {x : Error} (h : x.exchange? = none) : Renamed R x x
  | named {x : Error} {a b : String} (h : x.exchange? = some a) (hab : R a b) :
      Renamed R x (x.about b)

theorem Renamed.mono {R S : String → String → Prop} (h : ∀ a b, R a b → S a b) {x y : Error}
    (hxy : Renamed R x y) : Renamed S x y := by
  cases hxy with
  | same hnone => exact .same hnone
  | named hsome hab => exact .named hsome (h _ _ hab)

end Error

namespace Exchange

-- What may be different in a record that has been made or found in another run.
structure Mark where
  id : String
  threadId : String
  version : Version
  createdAt : Timestamp
  updatedAt : Option Timestamp

def mark (e : Exchange) : Mark := ⟨e.id, e.threadId, e.version, e.createdAt, e.updatedAt⟩

def under (e : Exchange) (m : Mark) : Exchange :=
  { e with
    id := m.id
    threadId := m.threadId
    version := m.version
    createdAt := m.createdAt
    updatedAt := m.updatedAt }

theorem under_mark (e : Exchange) : e.under e.mark = e := rfl

end Exchange

-- Two runs side by side, each in surroundings and in a family of its own, and how what the one
-- comes upon is related to what the other does. It depends on the stage that both have reached,
-- which is another one when a name has been drawn.
structure Pairing (ι : Type) where
  env : Environment
  env' : Environment
  version : Version
  version' : Version
  error : ι → Error → Error → Prop
  id : ι → String → String → Prop
  mark : ι → Exchange.Mark → Exchange.Mark → Prop
  thread : String → String → Prop
  header : ι → Header → Header → Prop
  message : ι → Message → Message → Prop
  stores : ι → Stores → Stores → Prop
  journal : ι → Journal → Journal → Prop
  -- Whether the runs may open threads.
  starts : Prop
  -- The messages that the runs may look up.
  readable : Kind → Prop

-- Apart from their marks the records are the same.
def Pairing.Record {ι : Type} (P : Pairing ι) (n : ι) (e e' : Exchange) : Prop :=
  ∃ m, P.mark n e.mark m ∧ e' = e.under m

theorem Pairing.Record.new {ι : Type} {P : Pairing ι} {n : ι} {id id' thread thread' : String}
    {version version' : Version} {now now' : Timestamp}
    (h : P.mark n ⟨id, thread, version, now, none⟩ ⟨id', thread', version', now', none⟩)
    (role : Role) (state : State) (connection : String) :
    P.Record n (.new id role version state thread connection now)
      (.new id' role version' state thread' connection now') := ⟨_, h, rfl⟩

namespace Inquiry

-- The two inquiries end in related ways at a later stage.
def Related {ι α β : Type} [Preorder ι] (P : Pairing ι) (n : ι) (R : ι → α → β → Prop)
    (x : Inquiry α) (y : Inquiry β) : Prop :=
  ∀ ⦃s s' j j'⦄, P.stores n s s' → P.journal n j j' →
    ∃ m, n ≤ m ∧ P.journal m (x P.env s j).2 (y P.env' s' j').2 ∧
      Concur (P.error m) (R m) (x P.env s j).1 (y P.env' s' j').1

-- No name has been drawn.
def Still {ι α β : Type} (n : ι) (R : α → β → Prop) : ι → α → β → Prop :=
  fun m a b => m = n ∧ R a b

namespace Related

variable {ι : Type} [Preorder ι] {P : Pairing ι} {n : ι} {α β γ δ : Type} {x : Inquiry α}
  {y : Inquiry β}

theorem mono {R S : ι → α → β → Prop} (h : ∀ m a b, R m a b → S m a b)
    (hx : Related P n R x y) : Related P n S x y := by
  intro s s' j j' hs hj
  obtain ⟨m, hm, hjournal, hconcur⟩ := hx hs hj
  exact ⟨m, hm, hjournal, hconcur.imp (fun _ _ hxy => hxy) (h m)⟩

theorem pure {R : ι → α → β → Prop} {a : α} {b : β} (h : R n a b) :
    Related P n R (pure a) (pure b) :=
  fun _ _ _ _ _ hj => ⟨n, le_refl n, hj, .ok h⟩

theorem lift {R : α → β → Prop} {x : Except Error α} {y : Except Error β}
    (h : Concur (P.error n) R x y) : Related P n (Still n R) (liftM x) (liftM y) :=
  fun _ _ _ _ _ hj => ⟨n, le_refl n, hj, h.imp (fun _ _ => id) fun _ _ hab => ⟨rfl, hab⟩⟩

theorem fail {R : ι → α → β → Prop} {x y : Error} (h : P.error n x y) :
    Related P n R (Inquiry.fail x) (Inquiry.fail y) :=
  fun _ _ _ _ _ hj => ⟨n, le_refl n, hj, .error h⟩

-- What follows is at the same stage.
theorem step {R : α → β → Prop} {S : ι → γ → δ → Prop} {f : α → Inquiry γ} {g : β → Inquiry δ}
    (hx : Related P n (Still n R) x y) (hf : ∀ a b, R a b → Related P n S (f a) (g b)) :
    Related P n S (x >>= f) (y >>= g) := by
  intro s s' j j' hs hj
  obtain ⟨m, hm, hjournal, hconcur⟩ := hx hs hj
  rw [bind_apply, bind_apply]
  rcases hxrun : x P.env s j with ⟨result, between⟩
  rcases hyrun : y P.env' s' j' with ⟨result', between'⟩
  rw [hxrun, hyrun] at hjournal hconcur
  cases hconcur with
  | ok h =>
    obtain ⟨rfl, hab⟩ := h
    exact hf _ _ hab hs hjournal
  | error hxy => exact ⟨m, hm, hjournal, .error hxy⟩

-- What both have found need not be told apart.
theorem same {S : ι → γ → δ → Prop} {x y : Inquiry α} {f : α → Inquiry γ} {g : α → Inquiry δ}
    (hx : Related P n (Still n (· = ·)) x y) (hf : ∀ a, Related P n S (f a) (g a)) :
    Related P n S (x >>= f) (y >>= g) := by
  refine hx.step ?_
  rintro a _ rfl
  exact hf a

theorem require {R : α → β → Prop} {found : Option α} {found' : Option β}
    (hfound : Option.Rel R found found') {what what' : Missing}
    (hwhat : P.error n (.notFound what) (.notFound what')) :
    Related P n (Still n R) (Inquiry.require found what) (Inquiry.require found' what') := by
  cases hfound with
  | some hab => exact .pure ⟨rfl, hab⟩
  | none => exact .fail hwhat

theorem stores : Related P n (Still n (P.stores n)) Inquiry.stores Inquiry.stores :=
  fun _ _ _ _ hs hj => ⟨n, le_refl n, hj, .ok ⟨rfl, hs⟩⟩

-- Two messages that are found are read alike.
theorem message? {e e' : Exchange} {kind : Kind}
    (asked : Related P n (Still n fun _ _ => True)
      (Inquiry.call (.findMessage e.id (typeUri e.version kind)))
      (Inquiry.call (.findMessage e'.id (typeUri e'.version kind))))
    (stored : ∀ s s', P.stores n s s' →
      Option.Rel
        (fun v v' => Concur (P.error n) (P.message n) (Message.ofJson v) (Message.ofJson v'))
        (s.message? e.id (typeUri e.version kind)) (s'.message? e'.id (typeUri e'.version kind))) :
    Related P n (Still n (Option.Rel (P.message n))) (Inquiry.message? e kind)
      (Inquiry.message? e' kind) := by
  refine .step asked fun _ _ _ => .step .stores fun s s' hs => ?_
  have hfound := stored s s' hs
  generalize s.message? _ _ = found at hfound ⊢
  generalize s'.message? _ _ = found' at hfound ⊢
  cases hfound with
  | none => exact .pure ⟨rfl, .none⟩
  | some hread => exact .step (.lift hread) fun _ _ hm => .pure ⟨rfl, .some hm⟩

-- After a name has been drawn nothing is looked up any more.
theorem map {R : ι → α → β → Prop} {S : ι → γ → δ → Prop} {f : α → γ} {g : β → δ}
    (hx : Related P n R x y) (hf : ∀ m a b, n ≤ m → R m a b → S m (f a) (g b)) :
    Related P n S (x >>= fun a => Pure.pure (f a)) (y >>= fun b => Pure.pure (g b)) := by
  intro s s' j j' hs hj
  obtain ⟨m, hm, hjournal, hconcur⟩ := hx hs hj
  refine ⟨m, hm, ?_⟩
  rw [bind_apply, bind_apply]
  rcases hxrun : x P.env s j with ⟨result, between⟩
  rcases hyrun : y P.env' s' j' with ⟨result', between'⟩
  rw [hxrun, hyrun] at hjournal hconcur
  cases hconcur with
  | ok h => exact ⟨hjournal, .ok (hf m _ _ hm h)⟩
  | error hxy => exact ⟨hjournal, .error hxy⟩

end Related

end Inquiry

-- A call that shows the collaborator a record or a message, or of which kind one is.
def Call.tellsFamily : Call → Bool
  | .put _ | .findMessage .. | .saveMessage .. | .send .. | .publish _ => true
  | _ => false

namespace Pairing

open Inquiry

variable {ι : Type} [Preorder ι]

-- What is read in both messages is the same.
structure Reads (P : Pairing ι) (n : ι) (m m' : Message) : Prop where
  kind : m'.kind = m.kind
  family : m'.version = P.version' ↔ m.version = P.version
  comment : m'.comment = m.comment
  preview : P.version'.preview m' = P.version.preview m
  definition : Concur (P.error n) (· = ·) (P.version.proposedDefinition m)
    (P.version'.proposedDefinition m')
  payload : ∀ kind ∈ [.offer, .request, .issue],
    Concur (P.error n) (· = ·) (P.version.payload m kind) (P.version'.payload m' kind)
  fault : ∀ f : Version → String → Fault,
    (∀ version type, (Error.invalidMessage (f version type)).exchange? = none) →
      P.error n (.invalidMessage (f P.version m.type)) (.invalidMessage (f P.version' m'.type))

-- What collaborators are asked, apart from the stores.
structure Asks (P : Pairing ι) (n : ι) : Prop where
  config : P.env'.config = P.env.config
  call : ∀ c : Call, c.tellsFamily = false →
    Related P n (Still n (· = ·)) (Inquiry.call c) (Inquiry.call c)
  ledger : ∀ artifact id,
    Related P n (Still n (· = ·)) (Inquiry.ledger artifact id) (Inquiry.ledger artifact id)

-- What is found in the stores.
structure Finds (P : Pairing ι) (n : ι) : Prop where
  shows : ∀ {a b}, P.id n a b → Related P n (Still n (· = ·))
    (Inquiry.call (.get a) : Inquiry Bool) (Inquiry.call (.get b) : Inquiry Bool)
  record? : ∀ {s s' a b}, P.stores n s s' → P.id n a b →
    Option.Rel (P.Record n) (s.record? a) (s'.record? b)
  listed : ∀ {s s' thread}, P.stores n s s' → P.thread thread thread →
    Forall₂ (P.Record n) (s.onThread thread) (s'.onThread thread)
  message? : ∀ {e e' kind}, P.Record n e e' → P.readable kind →
    Related P n (Still n (Option.Rel (P.message n))) (Inquiry.message? e kind)
      (Inquiry.message? e' kind)

-- What is drawn, and the records that are made with it.
structure Draws (P : Pairing ι) (n : ι) : Prop where
  newThread : P.starts → Related P n (Still n P.thread) Inquiry.newThread Inquiry.newThread
  newRecord : ∀ {thread thread'} role state connection, P.thread thread thread' →
    Related P n P.Record (Inquiry.newRecord role P.version state thread connection)
      (Inquiry.newRecord role P.version' state thread' connection)
  reply : ∀ {e e'}, P.Record n e e' →
    Related P n P.header (Inquiry.reply e.threadId) (Inquiry.reply e'.threadId)

-- The messages that are made.
structure Composes (P : Pairing ι) (n : ι) : Prop where
  opening : ∀ {m thread thread'}, P.starts → P.thread thread thread' →
    P.header m (.opening thread) (.opening thread')
  propose : ∀ {m h h'} proposal, P.header m h h' →
    P.message m (P.version.propose h proposal) (P.version'.propose h' proposal)
  offer : ∀ {m h h'} payload details, P.header m h h' →
    P.message m (P.version.offer h payload details) (P.version'.offer h' payload details)
  request : ∀ {m h h' o o'} payload, P.header m h h' → P.message n o o' →
    P.message m (P.version.request h payload o) (P.version'.request h' payload o')
  issue : ∀ {m h h' o o'} payload comment, P.header m h h' → P.message n o o' →
    P.message m (P.version.issue h payload comment o) (P.version'.issue h' payload comment o')
  ack : ∀ {m h h'}, P.header m h h' → P.message m (P.version.ack h) (P.version'.ack h')
  problemReport : ∀ {m h h'} code text, P.header m h h' →
    P.message m (P.version.problemReport h code text) (P.version'.problemReport h' code text)

-- All that an operation is made of leads from what is related to what is related.
structure Sound (P : Pairing ι) (n : ι) : Prop
    extends P.Asks n, P.Finds n, P.Draws n, P.Composes n where
  error : ∀ {x y}, Error.Renamed (P.id n) x y → P.error n x y
  id : ∀ {m m'}, P.mark n m m' → P.id n m.id m'.id
  threadId : ∀ {m m'}, P.mark n m m' → m'.threadId = m.threadId
  assertVersion : ∀ {e e'}, P.Record n e e' →
    Concur (P.error n) (· = ·) (e.assertVersion P.version) (e'.assertVersion P.version')
  reads : ∀ {m m'}, P.message n m m' → P.Reads n m m'
  later : ∀ {m a b}, n ≤ m → P.message n a b → P.message m a b

namespace Sound

variable {P : Pairing ι} {n : ι} (h : P.Sound n)

section Checks

variable {e e' : Exchange}

include h

theorem self {x : Error} (hx : x.exchange? = none) : P.error n x x := h.error (.same hx)

theorem assertRole (he : P.Record n e e') (role : Role) :
    Concur (P.error n) (· = ·) (e.assertRole role) (e'.assertRole role) := by
  obtain ⟨m, hm, rfl⟩ := he
  show Concur _ _ _ (ite (e.role = role) _ _)
  unfold Exchange.assertRole
  split
  · exact .ok rfl
  · exact .error (h.error (.named rfl (h.id hm)))

theorem assertState (he : P.Record n e e') (expected : List State) :
    Concur (P.error n) (· = ·) (e.assertState expected) (e'.assertState expected) := by
  obtain ⟨m, hm, rfl⟩ := he
  show Concur _ _ _ (ite (e.state ∈ expected) _ _)
  unfold Exchange.assertState
  split
  · exact .ok rfl
  · exact .error (h.error (.named rfl (h.id hm)))

theorem assertOpen (he : P.Record n e e') :
    Concur (P.error n) (· = ·) e.assertOpen e'.assertOpen := by
  obtain ⟨m, hm, rfl⟩ := he
  show Concur _ _ _ (ite (e.state.isTerminal = true) _ _)
  unfold Exchange.assertOpen
  split
  · exact .error (h.error (.named rfl (h.id hm)))
  · exact .ok rfl

theorem offerTerms (payload : String) :
    Concur (P.error n) (· = ·) (OfferPayload.ofText payload) (OfferPayload.ofText payload) := by
  refine .self fun x hx => h.self ?_
  unfold OfferPayload.ofText at hx
  split at hx <;> cases hx
  rfl

theorem credentialTerms (payload : String) :
    Concur (P.error n) (· = ·) (CredentialPayload.ofText payload)
      (CredentialPayload.ofText payload) := by
  refine .self fun x hx => h.self ?_
  unfold CredentialPayload.ofText at hx
  split at hx <;> cases hx
  rfl

end Checks

include h

section Looking

variable {a b : String} {e e' : Exchange}

theorem configured : Related P n (Still n (· = ·)) config config :=
  fun _ _ _ _ _ hj => ⟨n, le_refl n, hj, .ok ⟨rfl, h.config.symm⟩⟩

theorem find? (hid : P.id n a b) :
    Related P n (Still n (Option.Rel (P.Record n))) (find? a) (find? b) := by
  refine .same (h.shows hid) fun shown => .step .stores fun s s' hs => .pure ⟨rfl, ?_⟩
  cases shown with
  | true => exact h.record? hs hid
  | false => exact .none

theorem record (hid : P.id n a b) :
    Related P n (Still n (P.Record n)) (Inquiry.record a) (Inquiry.record b) :=
  .step (h.find? hid) fun _ _ hfound => .require hfound (h.error (.named rfl hid))

theorem lockedRecord (hid : P.id n a b) :
    Related P n (Still n (P.Record n)) (lockedRecord a) (lockedRecord b) :=
  .step (h.record hid) fun _ _ _ => h.record hid

-- As `owned_ok`.
theorem owned {α β : Type} {S : ι → α → β → Prop} (hid : P.id n a b) (role : Role) (state : State)
    {f : Exchange → Inquiry α} {g : Exchange → Inquiry β}
    (hf : ∀ e e', P.Record n e e' → Related P n S (f e) (g e')) :
    Related P n S
      (do
        let e ← Inquiry.lockedRecord a
        e.assertVersion P.version
        e.assertRole role
        e.assertState [state]
        f e)
      (do
        let e ← Inquiry.lockedRecord b
        e.assertVersion P.version'
        e.assertRole role
        e.assertState [state]
        g e) := by
  refine .step (h.lockedRecord hid) fun e e' he => ?_
  refine .same (.lift (h.assertVersion he)) fun _ => .same (.lift (h.assertRole he role)) fun _ => ?_
  exact .same (.lift (h.assertState he [state])) fun _ => hf e e' he

theorem select (thread : String) (role : Option Role) (connection : Option String)
    {listed listed' : List Exchange} (hlisted : Forall₂ (P.Record n) listed listed') :
    Concur (P.error n) (Option.Rel (P.Record n)) (select thread role connection listed)
      (select thread role connection listed') := by
  have hmatching : Forall₂ (P.Record n)
      (listed.filter fun e =>
        e.threadId = thread && role.all (e.role = ·) && connection.all (e.connectionId = ·))
      (listed'.filter fun e =>
        e.threadId = thread && role.all (e.role = ·) && connection.all (e.connectionId = ·)) := by
    refine List.rel_filter ?_ hlisted
    rintro e _ ⟨m, hm, rfl⟩
    have hthread : (e.under m).threadId = e.threadId := h.threadId hm
    simp only [hthread]
    exact Iff.rfl
  unfold Inquiry.select
  generalize listed.filter _ = matching at hmatching ⊢
  generalize listed'.filter _ = matching' at hmatching ⊢
  cases hmatching with
  | nil => exact .ok .none
  | cons he hrest =>
    cases hrest with
    | nil => exact .ok (.some he)
    | cons _ _ => exact .error (h.self rfl)

section Thread

variable {thread : String} (hthread : P.thread thread thread) (role : Option Role)
include hthread

theorem onThread (connection : Option String) :
    Related P n (Still n (Option.Rel (P.Record n))) (onThread thread role connection)
      (onThread thread role connection) :=
  .same (h.call (.byThread thread) rfl) fun _ => .step .stores fun _ _ hs =>
    .lift (h.select thread role connection (h.listed hs hthread))

theorem bound (connection : Option String) :
    Related P n (Still n (Option.Rel (P.Record n))) (bound thread role connection)
      (bound thread role connection) := by
  refine .same h.configured fun config => ?_
  cases connection with
  | none => exact h.onThread hthread role none
  | some connection =>
    refine .step (h.onThread hthread role (some connection)) fun found found' hfound => ?_
    cases hfound with
    | none => exact h.onThread hthread role (some config.connectionlessId)
    | some he => exact .pure ⟨rfl, .some he⟩

end Thread

theorem message (he : P.Record n e e') {kind : Kind} (hkind : P.readable kind) :
    Related P n (Still n (P.message n)) (Inquiry.message e kind) (Inquiry.message e' kind) := by
  refine .step (h.message? he hkind) fun _ _ hfound => .require hfound ?_
  obtain ⟨m, hm, rfl⟩ := he
  exact h.error (.named rfl (h.id hm))

end Looking

section Asking

variable {e e' : Exchange}

theorem offerPayload (definition : String) :
    Related P n (Still n (· = ·)) (Issuer.offerPayload definition)
      (Issuer.offerPayload definition) :=
  .same (h.call (.definition definition) rfl) fun issuer =>
    h.call (.createOffer issuer.schema issuer.definition issuer.keyProof) rfl

theorem requesterDid (he : P.Record n e e') (did : Option String) :
    Related P n (Still n (· = ·)) (Holder.requesterDid e did) (Holder.requesterDid e' did) := by
  obtain ⟨m, -, rfl⟩ := he
  cases did with
  | some did => exact .pure ⟨rfl, rfl⟩
  | none => exact .same (h.call (.connection e.connectionId) rfl) fun _ => .pure ⟨rfl, rfl⟩

theorem registry (id : Option String) :
    Related P n (Still n (· = ·)) (Holder.registry id) (Holder.registry id) := by
  cases id with
  | some id => exact .same (h.ledger .revocationRegistry id) fun _ => .pure ⟨rfl, rfl⟩
  | none => exact .pure ⟨rfl, rfl⟩

end Asking

end Sound

end Pairing

end CredentialIssuance
