import ERP.Lib.KeyedInsert
import ERP.Orders.TransferRuns

/-!
# Creating transfers under idempotency keys

`create` looks for the transfer of its key, inserts one in a transaction, and looks again
when the unique index stops the transaction.  Its steps interleave with those of other
calls and with every other operation on the inventory.
-/

namespace ERP
namespace Orders

open Inventory Lib.Tx Lib.KeyedInsert

/-- A call of `create`. -/
structure CreateCall where
  tenantId : Id
  key : String
  dto : CreateWarehouseTransferDto

/-- The unique index over tenant and idempotency key, as `create` reads it. -/
def transferIndex : Index DB (Id × String) WarehouseTransfer String Failure where
  find db key := findTransferByKey db key.1 key.2
  hash := (·.requestHash)
  duplicate := .uniqueViolation
  reused := .transferKeyReused

/-- What the checks of `create` leave of a call, or how they fail. -/
def CreateCall.request (stamp : Stamp) (rt : TransferRuntime) (c : CreateCall) :
    Except Failure (Request DB (Id × String) WarehouseTransfer String Failure) :=
  match normalizeTransfer rt c.key c.dto with
  | .error e => .error e
  | .ok request => .ok
    { key := (c.tenantId, c.key)
      hash := rt.transferHash request
      insert := insertTransfer stamp rt c.tenantId c.key request }

/-- Calls of `create` step by step, among the other operations. -/
def runCreates (stamp : Stamp) (rt : TransferRuntime) (calls : Nat → CreateCall)
    (events : List (Event Operation)) (db : DB) :
    State DB (Id × String) WarehouseTransfer String Failure :=
  run transferIndex (fun p => (calls p).request stamp rt)
    (fun op db => commit (op.exec stamp rt) db) events (start db)

section Lawful

variable {stamp : Stamp} {rt : TransferRuntime} {db db' : DB}

theorem createTransferItems_unique (found : List InventoryItem) (items : List TransferItemDto) :
    Post (createTransferItems stamp found items) db (fun _ _ => True)
      fun e => e ≠ .uniqueViolation := by
  induction items generalizing db with
  | nil => trivial
  | cons item rest ih =>
      unfold createTransferItems
      simp only [post_bind, post_pure, freshId, post_get, post_set, post_expect]
      refine ⟨fun row _ => ih, fun _ => by simp⟩

/-- The unique index stops the insert only where there is a transfer under the key. -/
theorem insertTransfer_unique {tenantId : Id} {key : String}
    {request : CreateWarehouseTransferDto} :
    Post (insertTransfer stamp rt tenantId key request) db (fun _ _ => True)
      fun e => e = .uniqueViolation → findTransferByKey db tenantId key ≠ none := by
  unfold insertTransfer
  simp only [post_bind, post_get, post_expect, post_require, post_modify, post_pure]
  refine ⟨fun source _ => ⟨fun destination _ => ⟨fun _ => ⟨fun _ => ⟨fun _ => ?_, fun hfound _ =>
    hfound⟩, by simp⟩, by simp⟩, by simp⟩, by simp⟩
  refine freshId_post ((createTransferItems_unique _ _).mono (fun items db' _ => ?_)
    fun e he heq => absurd heq he)
  exact writeOutbox_post fun _ _ _ => trivial

/-- What is found under a key is found there still in tables that grow. -/
theorem keeps_of_grown (h : Lib.Grown Later db.transfers db'.transfers) :
    Keeps transferIndex Later db db' := by
  intro k t ht
  refine h.find?_of_same (fun r s hrs => ?_) ht
  rw [hrs.tenant, hrs.key]

/-- Calls of `create` rely on the unique index alone. -/
theorem lawful_creates (stamp : Stamp) (rt : TransferRuntime) (calls : Nat → CreateCall) :
    Lawful transferIndex (fun p => (calls p).request stamp rt)
      (fun (op : Operation) db => commit (op.exec stamp rt) db)
      (fun db => Sound ⟨db, []⟩ ∧ TransferBooks db) Later := by
  refine ⟨Later.refl, fun _ _ _ => Later.trans, fun _ _ => Later.hash, by simp [transferIndex],
    fun p e he => ?_, fun op db h => ?_, fun p request db t db' hrequest hI hinsert => ?_,
    fun p request db hrequest hI hstopped => ?_⟩
  · unfold CreateCall.request at he
    split at he
    · rename_i e' hchecks
      cases he
      exact ne_of_mem_of_not_mem (normalizeTransfer_error hchecks) (by decide)
    · cases he
  · have hkept : BooksKept db (commit (op.exec stamp rt) db) := op.booksKept h.1 h.2
    exact ⟨⟨h.1.run (op.run_commit stamp rt h.1), hkept.books⟩, keeps_of_grown hkept.transfers⟩
  · unfold CreateCall.request at hrequest
    split at hrequest
    · cases hrequest
    · rename_i dto hok
      cases hrequest
      have hchecked := normalizeTransfer_ok hok
      obtain ⟨hrun, hcreated⟩ := (insertTransfer_post (A := .all) (S := fun _ => True)
        hchecked.pos hchecked.distinct trivial).of_ok hinsert
      have hkept := (hcreated.carriedOut hchecked hI.2).kept
      refine ⟨⟨hI.1.run hrun, hkept.books⟩, keeps_of_grown hkept.transfers, hcreated.fresh, ?_,
        hcreated.hash⟩
      have hnone := hcreated.fresh
      show findTransferByKey db' (calls p).tenantId (calls p).key = some t
      unfold findTransferByKey at hnone ⊢
      rw [hcreated.inserted, List.find?_append, hnone]
      simp [hcreated.tenant, hcreated.key]
  · unfold CreateCall.request at hrequest
    split at hrequest
    · cases hrequest
    · cases hrequest
      exact insertTransfer_unique.of_error hstopped rfl

end Lawful

section Creates

variable {db : DB}

/-- However the steps of any number of calls of `create` come between each other and between
the other operations: the calls that are accepted under one key of a tenant were one request
and are answered with one transfer, as it was inserted or has become; at most one call has
inserted it; no call ends with the violation of the unique index; and a call that has made
three steps has ended. -/
theorem creates_agree (stamp : Stamp) (rt : TransferRuntime) (hs : Sound ⟨db, []⟩)
    (hb : TransferBooks db) (calls : Nat → CreateCall) (events : List (Event Operation)) :
    (∀ p q a b t t', (calls p).request stamp rt = .ok a → (calls q).request stamp rt = .ok b →
      a.key = b.key → ((runCreates stamp rt calls events db).phases p).answer = some t →
      ((runCreates stamp rt calls events db).phases q).answer = some t' →
      a.hash = b.hash ∧ ∃ row ∈ (runCreates stamp rt calls events db).store.transfers,
        Later t row ∧ Later t' row) ∧
    (∀ p q a b t t', (runCreates stamp rt calls events db).phases p = .inserted a t →
      (runCreates stamp rt calls events db).phases q = .inserted b t' → a.key = b.key → p = q) ∧
    (∀ p, (runCreates stamp rt calls events db).phases p ≠ .refused .uniqueViolation) ∧
    ∀ p, 3 ≤ events.countP (Event.isCall p) →
      ((runCreates stamp rt calls events db).phases p).ended = true := by
  have hlawful := lawful_creates stamp rt calls
  have hstart : Agreed transferIndex Later (fun db => Sound ⟨db, []⟩ ∧ TransferBooks db)
      (fun p => (calls p).request stamp rt) (start db) := .start ⟨hs, hb⟩
  have hagreed : Agreed transferIndex Later (fun db => Sound ⟨db, []⟩ ∧ TransferBooks db)
      (fun p => (calls p).request stamp rt) (runCreates stamp rt calls events db) :=
    hstart.run hlawful events
  refine ⟨fun p q a b t t' ha hb' hkey hp hq => ?_, hagreed.once, fun p hrefused => ?_,
    fun p hthree => ended_of_three hthree⟩
  · obtain ⟨hhash, row, hrow, hsame, hsame'⟩ := hagreed.one_answer hlawful ha hb' hkey hp hq
    exact ⟨hhash, row, List.mem_of_find?_eq_some hrow, hsame, hsame'⟩
  · have hknown := hagreed.known p
    rw [hrefused] at hknown
    exact hknown rfl

end Creates

/-- The same transfer of five of the beans, called for twice. -/
def beansTwice : Nat → CreateCall := fun _ => ⟨1, "first", ⟨"ccc", "cccc", [⟨"c", 5⟩], none⟩⟩

/-- Both calls find nothing, the second is stopped by the index and looks again. -/
def bothMiss : List (Event Operation) := [.call 0, .call 1, .call 0, .call 1, .call 0, .call 1]

theorem creates_agree_both_miss :
    ∃ t t', ((runCreates .sequential .plain beansTwice bothMiss beansAndMilk).phases 0).answer =
        some t ∧
      ((runCreates .sequential .plain beansTwice bothMiss beansAndMilk).phases 1).answer =
        some t' ∧
      ∃ row ∈ (runCreates .sequential .plain beansTwice bothMiss beansAndMilk).store.transfers,
        Later t row ∧ Later t' row := by
  have hagree := creates_agree .sequential .plain sound_beansAndMilk
    (transferBooks_opening _ _ _) beansTwice bothMiss
  have hfirst : ((runCreates .sequential .plain beansTwice bothMiss
      beansAndMilk).phases 0).answer.isSome = true := by decide +kernel
  have hsecond : ((runCreates .sequential .plain beansTwice bothMiss
      beansAndMilk).phases 1).answer.isSome = true := by decide +kernel
  have hok : ((beansTwice 0).request .sequential .plain).isOk = true := by decide +kernel
  obtain ⟨t, ht⟩ := Option.isSome_iff_exists.mp hfirst
  obtain ⟨t', ht'⟩ := Option.isSome_iff_exists.mp hsecond
  cases hrequest : (beansTwice 0).request .sequential .plain with
  | error e =>
      rw [hrequest] at hok
      cases hok
  | ok a => exact ⟨t, t', ht, ht', (hagree.1 0 1 a a t t' hrequest hrequest rfl ht ht').2⟩

end Orders
end ERP
