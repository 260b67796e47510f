import ERP.Store
import ERP.Lib.Sorting
import ERP.Lib.Text

/-!
# Receipt requests

What the transfer receipt and the purchase order receipt have in common: the
idempotency key, the normalised request, its hash, and the plan that bounds each
received line by what was shipped or ordered.
-/

namespace ERP

/-- What the JavaScript runtime provides: the collation `localeCompare` sorts by,
and the SHA-256 digests of the JSON text of the normalised requests. -/
structure Runtime (Transfer Receipt : Type) where
  localeLE : String → String → Bool
  transferHash : Transfer → String
  receiptHash : Receipt → String

/-- A runtime that sorts by code points, for runs in which no request is hashed. -/
def Runtime.plain {Transfer Receipt : Type} : Runtime Transfer Receipt where
  localeLE := fun a b => a ≤ b
  transferHash := fun _ => ""
  receiptHash := fun _ => ""

/-- `/^[\x21-\x7e]+$/` on 1 to 128 characters. -/
def validIdempotencyKey (key : String) : Bool :=
  1 ≤ key.length && key.length ≤ 128 &&
    key.toList.all fun c => 0x21 ≤ c.toNat && c.toNat ≤ 0x7e

/-- `dto.note?.trim() || null`. -/
def normalizeNote (note : Option String) : Option String :=
  (note.map Lib.trim).filter (· ≠ "")

structure ReceiptItemDto where
  itemId : String
  receivedQuantity : ℚ
  deriving DecidableEq, Repr

structure ReceiptDto where
  items : List ReceiptItemDto
  note : Option String
  deriving DecidableEq, Repr

/-- The failures of the item checks, and the quantities that are refused. -/
structure ReceiptRules where
  tooSmall : ℚ → Bool
  idRequired : Failure
  quantityInvalid : Failure
  duplicate : Failure

/-- The loop over the items with the `Set` of the ids seen so far. -/
def checkReceiptItems (rules : ReceiptRules) :
    List ReceiptItemDto → List String → Except Failure Unit
  | [], _ => .ok ()
  | item :: rest, seen =>
    if item.itemId = "" then .error rules.idRequired
    else if rules.tooSmall item.receivedQuantity then .error rules.quantityInvalid
    else if item.itemId ∈ seen then .error rules.duplicate
    else checkReceiptItems rules rest (item.itemId :: seen)

/-- Trim the ids, check the items, sort them by id. -/
def normalizeReceipt (localeLE : String → String → Bool) (rules : ReceiptRules)
    (dto : ReceiptDto) : Except Failure ReceiptDto := do
  let items := dto.items.map fun item => { item with itemId := Lib.trim item.itemId }
  checkReceiptItems rules items []
  pure
    { items := items.insertionSort fun a b => localeLE a.itemId b.itemId = true
      note := normalizeNote dto.note }

/-- `1e-9`. -/
def tolerance : ℚ := 1 / 1000000000

/-- Numbers that are as exact as one likes, for what does not depend on their rounding. -/
def unrounded (x : ℚ) : ℚ := x

/-- What receiving `quantity` more of a line does: how much is taken, and what
the line has received then.  `none` when that exceeds `limit`.  `round` is what the
runtime makes of a sum or a difference. -/
def planLine (round : ℚ → ℚ) (limit received quantity : ℚ) : Option (ℚ × ℚ) :=
  let nextReceived := round (received + quantity)
  if round tolerance < round (nextReceived - limit) then none
  else some (round (min nextReceived limit - received), min nextReceived limit)

/-- Whether a line counts as received in full. -/
def lineReceived (round : ℚ → ℚ) (limit received : ℚ) : Bool :=
  round (limit - round tolerance) ≤ received

theorem planLine_unrounded (limit received quantity : ℚ) :
    planLine unrounded limit received quantity =
      if tolerance < received + quantity - limit then none
      else some (min (received + quantity) limit - received, min (received + quantity) limit) :=
  rfl

@[simp] theorem lineReceived_unrounded (limit received : ℚ) :
    lineReceived unrounded limit received = decide (limit - tolerance ≤ received) := rfl

end ERP
