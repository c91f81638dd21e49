import Conjectures.Lib.Run
import Conjectures.Api.Webhook
import Conjectures.Reconciler.Steps

/-!
# Deliveries in flight

The handlers of several deliveries run side by side, under READ COMMITTED.  A handler claims
its delivery and looks its order up in one transaction, which goes on to apply the delivery
and commits; the claim is a row lock on the delivery's id, and another handler of that id
waits for it.  The lookup locks nothing: the handler goes on with the copy it read.  What
became of the delivery is noted in a transaction of its own, and so is a failure.

A handler can raise or crash at any point.  Polls, the reconciler and purchases run in
between.
-/

namespace Conjectures.Webhooks

open Lib Db Api

/-- How far a handler is. -/
inductive Phase where
  /-- claimed, and matched to a copy of an order -/
  | applying (order : TmcPayOrder) (byExternalId : Bool)
  /-- applied and committed; the outcome is still to be noted -/
  | noting (orderId : Uuid) (outcome : DeliveryOutcome)
  /-- rolled back, as the order was credited already -/
  | rereading (order : TmcPayOrder)
  /-- rolled back by an exception -/
  | failing (orderId : Uuid)
  | done
  deriving DecidableEq

def Phase.Applying : Phase → Prop
  | .applying .. => True
  | _ => False

instance Phase.decidableApplying (p : Phase) : Decidable p.Applying := by
  unfold Phase.Applying; split <;> infer_instance

/-- The copy of the order a handler works on. -/
def Phase.copy : Phase → Option TmcPayOrder
  | .applying order _ => some order
  | _ => none

structure Handler where
  number : ℕ
  delivery : Delivery
  phase : Phase
  deriving DecidableEq

def Handler.moved (h : Handler) (phase : Phase) : Handler := { h with phase }

@[simp] theorem Handler.moved_number (phase : Phase) (h : Handler) :
    (h.moved phase).number = h.number := rfl

structure State where
  db : Database
  handlers : Table Handler.number

/-- A running transaction holds the row of this delivery id. -/
def State.Held (s : State) (webhookId : String) : Prop :=
  ∃ h ∈ s.handlers.rows, h.delivery.webhookId = webhookId ∧ h.phase.Applying

instance State.decidableHeld (s : State) (webhookId : String) : Decidable (s.Held webhookId) :=
  inferInstanceAs (Decidable (∃ h ∈ _, _))

/-- Handler `number` goes on to another phase. -/
def State.goto (s : State) (number : ℕ) (phase : Phase) (db : Database) : State :=
  { db, handlers := s.handlers.modify number (·.moved phase) (Handler.moved_number phase) }

/-- `fault` is an exception the model does not spell out. -/
inductive Step where
  | arrive (number : ℕ) (d : Delivery)
  | apply (number : ℕ) (now : Instant) (fault : Bool)
  | note (number : ℕ) (fault : Bool)
  | fail (number : ℕ) (fault : Bool)
  | crash (number : ℕ)
  | poll (orderId accountId : Uuid) (reading : Option Invoice) (now : Instant)
  | sweep (orderId accountId : Uuid) (reading : Option Invoice) (now : Instant)
  | lapse (now : Instant)
  | purchase (id accountId : Uuid) (credits : ℤ) (creditPriceRao : Rao) (externalId : String)
      (createdAt : Instant)
  | invoice (orderId : Uuid) (f : InvoiceFields)

/-- A delivery arrives.  One that is not acted on is answered at once, one whose id is held
waits. -/
def arrive (settings : TmcPaySettings) (s : State) (number : ℕ) (d : Delivery) : State :=
  if s.Held d.webhookId then s
  else
    let (claimed, db') := d.claim s.db
    if d.Foreign settings then { s with db := answer db' d .ignored claimed }
    else if ¬ claimed then s
    else
      match matchOrder db' d.invoice with
      | none => { s with db := answer db' d .unknown true }
      | some (order, byExternalId) =>
        match s.handlers.insert? ⟨number, d, .applying order byExternalId⟩ with
        | some handlers => { s with handlers }
        | none => s

/-- The handler applies its delivery to its copy of the order. -/
def apply (settings : TmcPaySettings) (s : State) (number : ℕ) (d : Delivery)
    (order : TmcPayOrder) (byExternalId : Bool) (now : Instant) : State :=
  match attempt settings (d.claim s.db).2 order byExternalId d now with
  | .ok (.superseded db) => s.goto number .done db
  | .ok (.applied db orderId outcome) => s.goto number (.noting orderId outcome) db
  | .ok (.alreadyCredited attached) => s.goto number (.rereading attached) s.db
  | .error _ => s.goto number (.failing order.id) s.db

/-- A write to a delivery's row waits for the handler that holds it. -/
def State.Blocked (s : State) (webhookId : String) : Prop :=
  s.Held webhookId ∧ (s.db.deliveries.find? webhookId).isSome

instance State.decidableBlocked (s : State) (webhookId : String) :
    Decidable (s.Blocked webhookId) := by
  unfold State.Blocked; infer_instance

/-- The outcome is noted. -/
def note (s : State) (h : Handler) (fault : Bool) : State :=
  match h.phase with
  | .noting orderId outcome =>
    if fault then s.goto h.number (.failing orderId) s.db
    else if s.Blocked h.delivery.webhookId then s
    else s.goto h.number .done
      (noteDeliveryOutcome s.db h.delivery.webhookId outcome (some orderId))
  | .rereading order =>
    if fault then s.goto h.number (.failing order.id) s.db
    else if s.Blocked h.delivery.webhookId then s
    else
      match noteCredited s.db h.delivery order with
      | .ok db => s.goto h.number .done db
      | .error _ => s.goto h.number (.failing order.id) s.db
  | _ => s

/-- The failure is recorded, or lost with the database. -/
def fail (s : State) (h : Handler) (fault : Bool) : State :=
  match h.phase with
  | .failing orderId =>
    if fault then s.goto h.number .done s.db
    else if s.Held h.delivery.webhookId then s
    else s.goto h.number .done (failed s.db h.delivery orderId)
  | _ => s

def step (settings : TmcPaySettings) (s : State) : Step → State
  | .arrive number d => arrive settings s number d
  | .apply number now fault =>
    match s.handlers.find? number with
    | some ⟨_, d, .applying order byExternalId⟩ =>
      if fault then s.goto number (.failing order.id) s.db
      else apply settings s number d order byExternalId now
    | _ => s
  | .note number fault =>
    match s.handlers.find? number with
    | some h => note s h fault
    | none => s
  | .fail number fault =>
    match s.handlers.find? number with
    | some h => fail s h fault
    | none => s
  | .crash number => s.goto number .done s.db
  | .poll orderId accountId reading now =>
    { s with db := commit (readOrder settings orderId accountId reading now) s.db }
  | .sweep orderId accountId reading now =>
    { s with db := commit (Reconciler.readBack settings orderId accountId reading now) s.db }
  | .lapse now => { s with db := expireLapsedOrders s.db now }
  | .purchase id accountId credits creditPriceRao externalId createdAt =>
    { s with db := commit (fun db ↦
        createOrder db id accountId credits creditPriceRao externalId createdAt) s.db }
  | .invoice orderId f => { s with db := commit (Reconciler.attach orderId f) s.db }

end Conjectures.Webhooks
