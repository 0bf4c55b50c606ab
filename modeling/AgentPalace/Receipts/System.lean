import AgentPalace.Lib.Machine
import AgentPalace.Receipts.Store
import Mathlib.Order.CompletePartialOrder
import Mathlib.Order.CompleteBooleanAlgebra

/-!
# Receipts as cells

Any servers call the receipt store in any order, each call in a transaction of
its own. A call works on the receipt stored under its key: `respond` is what it
answers and leaves there, and a call of the store is that and nothing else
(`execute_respond`).
-/

namespace AgentPalace.Receipts

inductive Call where
  | beginReceipt (input : NewReceipt)
  | completeReceipt (key : ReceiptKey) (response : Json)
  | setReceiptDetails (key : ReceiptKey) (details : Json)
  | getReceipt (key : ReceiptKey)

inductive Reply where
  | outcome (value : ReceiptOutcome)
  | done
  | receipt (value : Option MutationReceipt)
  deriving DecidableEq

abbrev Answer := Except StorageError Reply

structure Request where
  now : OffsetDateTime
  call : Call

namespace Request

def body (r : Request) : RTx Reply :=
  match r.call with
  | .beginReceipt input => .outcome <$> beginReceipt r.now input
  | .completeReceipt key response => (fun _ => .done) <$> completeReceipt r.now key response
  | .setReceiptDetails key details => (fun _ => .done) <$> setReceiptDetails key details
  | .getReceipt key => .receipt <$> getReceipt key

def execute (r : Request) (db : ReceiptDb) : Answer × ReceiptDb := r.body.run db

end Request

def store : TimedStore ReceiptDb Request Answer Unit where
  init := .empty
  now _ := ()
  exec := Request.execute

abbrev State := World ReceiptDb Unit

abbrev Label := Served Request Answer

def system : Machine State Label := store.machine

theorem init_empty : system.Init ⟨store.init, ()⟩ := rfl

/-! ## One cell -/

/-- The key a call is about, or why it has none. -/
def Call.key : Call → Except StorageError OwnerScopedKey
  | .beginReceipt input => do
    checkReceipt input
    return input.operationKey
  | .completeReceipt key response => do
    let key ← key.intoReceiptKey
    boundedDocument "response exceeds" response
    return key
  | .setReceiptDetails key details => do
    let key ← key.intoReceiptKey
    boundedDocument "details exceed" details
    return key
  | .getReceipt key => key.intoReceiptKey

abbrev Cell := Option ReceiptRow

/-- How a begin classifies the receipt it finds. -/
def classify (input : NewReceipt) (row : ReceiptRow) : ReceiptOutcome :=
  if row.requestHash ≠ input.requestHash then .conflict input.operationKey.rawKey
  else
    match row.status with
    | .completed => .replay row.toReceipt
    | .pending => .recover row.toReceipt

/-- What a call about `key` answers, and what it leaves. -/
def Request.respond (r : Request) (key : OwnerScopedKey) (cell : Cell) : Answer × Cell :=
  match r.call, cell with
  | .beginReceipt input, some row => (.ok (.outcome (classify input row)), cell)
  | .beginReceipt input, none =>
    match formatTime r.now with
    | .error e => (.error e, none)
    | .ok created =>
      (.ok (.outcome (.fresh (input.row created).toReceipt)), some (input.row created))
  | .completeReceipt _ _, none =>
    (.error (.invariant s!"cannot complete unknown receipt `{key.compositeKey}`"), none)
  | .completeReceipt _ response, some row =>
    match row.status with
    | .completed => (.ok .done, cell)
    | .pending =>
      match formatTime r.now with
      | .error e => (.error e, cell)
      | .ok completed => (.ok .done, some (row.complete response completed))
  | .setReceiptDetails _ _, none =>
    (.error (.invariant s!"cannot annotate unknown receipt `{key.compositeKey}`"), none)
  | .setReceiptDetails _ details, some row =>
    match row.status with
    | .completed =>
      (.error (.invariant s!"cannot annotate completed receipt `{key.compositeKey}`"), cell)
    | .pending => (.ok .done, some (row.annotate details))
  | .getReceipt _, cell => (.ok (.receipt (cell.map (·.toReceipt))), cell)

end AgentPalace.Receipts
