import ERP.Inventory.Configure
import ERP.Inventory.ReplayQuantities

/-!
# What the choice of a method leaves

A configured item is valued, but for one case: the layers of a FIFO item come from its
recorded history, which the replay accepts when it is off by the tolerance, their columns keep
six decimals, and the valuation wants them to hold exactly what is in stock.
-/

namespace ERP
namespace Inventory

open Lib.Tx

/-! ## The replayed quantities by warehouse -/

section ByWarehouse

theorem sum_ite_of_nodup {κ : Type} [DecidableEq κ] {keys : List κ} (h : keys.Nodup) (g : κ → ℚ)
    (k : κ) : (keys.map fun j => if j = k then g j else 0).sum = if k ∈ keys then g k else 0 := by
  induction keys with
  | nil => rfl
  | cons j rest ih =>
      obtain ⟨hj, hrest⟩ := List.nodup_cons.mp h
      rw [List.map_cons, List.sum_cons, ih hrest]
      by_cases hk : j = k
      · subst hk
        rw [if_pos rfl, if_neg hj, if_pos List.mem_cons_self, add_zero]
      · rw [if_neg hk, zero_add]
        exact if_congr ⟨List.mem_cons_of_mem j, fun hmem =>
          (List.mem_cons.mp hmem).resolve_left (Ne.symm hk)⟩ rfl rfl

theorem get_foldl_set_of_notMem {κ α : Type} [DecidableEq κ] {entries : List (κ × α)} {k : κ}
    (h : k ∉ entries.map Prod.fst) (m : Lib.OrderedMap κ α) :
    (entries.foldl (fun m entry => m.set entry.1 entry.2) m).get k = m.get k := by
  induction entries generalizing m with
  | nil => rfl
  | cons entry rest ih =>
      rw [List.map_cons, List.mem_cons, not_or] at h
      rw [List.foldl_cons, ih h.2, Lib.OrderedMap.get_set, if_neg h.1]

/-- Of entries with distinct keys the map holds each. -/
theorem mapOf_getD {κ : Type} [DecidableEq κ] {entries : List (κ × ℚ)}
    (h : (entries.map Prod.fst).Nodup) (k : κ) :
    ((mapOf entries).get k).getD 0 = (entries.map fun e => if e.1 = k then e.2 else 0).sum := by
  have hfold (m : Lib.OrderedMap κ ℚ) (hm : k ∈ entries.map Prod.fst → m.get k = none) :
      ((entries.foldl (fun m entry => m.set entry.1 entry.2) m).get k).getD 0 =
        (m.get k).getD 0 + (entries.map fun e => if e.1 = k then e.2 else 0).sum := by
    induction entries generalizing m with
    | nil => exact (add_zero _).symm
    | cons entry rest ih =>
        obtain ⟨hentry, hrest⟩ := List.nodup_cons.mp h
        rw [List.foldl_cons, List.map_cons, List.sum_cons]
        by_cases hk : entry.1 = k
        · subst hk
          have hnone := hm List.mem_cons_self
          have hzero : (rest.map fun e => if e.1 = entry.1 then e.2 else 0).sum = 0 :=
            List.sum_eq_zero fun q hq => by
              obtain ⟨e, he, rfl⟩ := List.mem_map.mp hq
              exact if_neg fun heq : e.1 = entry.1 => hentry (heq ▸ List.mem_map_of_mem he)
          rw [get_foldl_set_of_notMem hentry, Lib.OrderedMap.get_set, if_pos rfl, if_pos rfl, hnone,
            hzero, add_zero]
          exact (zero_add entry.2).symm
        · have hrest' : k ∈ rest.map Prod.fst → (m.set entry.1 entry.2).get k = none := by
            intro hmem
            rw [Lib.OrderedMap.get_set, if_neg (Ne.symm hk)]
            exact hm (List.mem_cons_of_mem _ hmem)
          rw [ih hrest _ hrest', Lib.OrderedMap.get_set, if_neg (Ne.symm hk), if_neg hk, zero_add]
  rw [mapOf, hfold .empty fun _ => Lib.OrderedMap.get_empty k, Lib.OrderedMap.get_empty]
  exact zero_add _

variable {history : History} {now : Int} {inventoryItemId : Id} {stocks : List (Option Id × ℚ)}

theorem locationKeys_nodup : (locationKeys history stocks).Nodup := by
  unfold locationKeys
  refine List.nodup_append.mpr ⟨(mapOf stocks).nodup,
    (movementsByWarehouse (historicalMovements history)).nodup.filter _, ?_⟩
  intro a ha b hb hab
  have hnew := of_decide_eq_true (List.mem_filter.mp hb).2
  exact hnew (Lib.OrderedMap.has_iff.mpr (hab ▸ ha))

/-- The layers replayed for a warehouse hold what its history leaves there. -/
theorem reconstructed_quantity (hstocks : ∀ stock ∈ stocks, 0 ≤ stock.2)
    (warehouseId : Option Id) :
    ((reconstructHistoricalFifo history now inventoryItemId stocks).map fun balance =>
      if balance.warehouseId = warehouseId then layerQuantity balance.layers else 0).sum =
    historicalQuantity (replayCosts history) now warehouseId inventoryItemId
      (((mapOf stocks).get warehouseId).getD 0)
      ((historicalMovements history).filter fun movement =>
        movement.warehouseId = warehouseId) := by
  have hcurrent (warehouseId : Option Id) : 0 ≤ ((mapOf stocks).get warehouseId).getD 0 := by
    cases hstock : (mapOf stocks).get warehouseId with
    | none => exact le_refl 0
    | some q => exact hstocks (warehouseId, q) (mem_of_mapOf hstock)
  unfold reconstructHistoricalFifo
  dsimp only
  rw [List.map_map]
  have hbalance : ∀ key ∈ locationKeys history stocks, ((fun balance : HistoricalFifoBalance =>
        if balance.warehouseId = warehouseId then layerQuantity balance.layers else 0) ∘
      fun key => balanceOfWarehouse (replayCosts history) now inventoryItemId key
        (((mapOf stocks).get key).getD 0)
        (((movementsByWarehouse (historicalMovements history)).get key).getD [])) key =
      if key = warehouseId then historicalQuantity (replayCosts history) now key inventoryItemId
        (((mapOf stocks).get key).getD 0)
        ((historicalMovements history).filter fun movement => movement.warehouseId = key)
      else 0 := by
    intro key _
    rw [Function.comp_apply, balanceOfWarehouse_warehouseId, movementsByWarehouse_get,
      balanceOfWarehouse_quantity (hcurrent key)]
  rw [List.map_congr_left hbalance, sum_ite_of_nodup locationKeys_nodup]
  by_cases hkey : warehouseId ∈ locationKeys history stocks
  · rw [if_pos hkey]
  · -- a warehouse with neither stock nor movements
    rw [if_neg hkey]
    unfold locationKeys at hkey
    rw [List.mem_append, not_or] at hkey
    have hnone : (mapOf stocks).get warehouseId = none :=
      Lib.OrderedMap.get_eq_none_iff.mpr hkey.1
    have hmovements : (movementsByWarehouse (historicalMovements history)).get warehouseId =
        none := by
      refine Lib.OrderedMap.get_eq_none_iff.mpr fun hmem => hkey.2 ?_
      refine List.mem_filter.mpr ⟨hmem, decide_eq_true ?_⟩
      exact fun hhas => hkey.1 (Lib.OrderedMap.has_iff.mp hhas)
    rw [← movementsByWarehouse_get, hmovements, hnone]
    rfl

end ByWarehouse

/-! ## What is written -/

section Written

variable {stamp : Stamp} {db db' : DB} {tenantId inventoryItemId : Id}
  {dto : ConfigureInventoryValuationDto} {replayed : ReplayedHistory}
  {costByWarehouse : Lib.OrderedMap (Option Id) ℚ}

/-- A cost layer as the replay has it. -/
structure MadeFrom (tenantId inventoryItemId : Id) (created : Option Id × HistoricalFifoLayer)
    (layer : InventoryCostLayer) : Prop where
  tenant : layer.tenantId = tenantId
  item : layer.inventoryItemId = inventoryItemId
  warehouse : layer.warehouseId = created.1
  remaining : layer.remainingQuantity = storeDecimal created.2.quantity
  source : configuredSource layer.sourceType = true

theorem configuredLayer_madeFrom (created : Option Id × HistoricalFifoLayer) (unitCost : ℚ)
    (id : Id) : MadeFrom tenantId inventoryItemId created
      (configuredLayer tenantId inventoryItemId created.1 created.2 unitCost id) := by
  refine ⟨rfl, rfl, rfl, rfl, ?_⟩
  unfold configuredLayer
  dsimp only
  split
  · rfl
  · rfl

theorem createConfiguredLayers_post (created : List (Option Id × HistoricalFifoLayer)) :
    Post (created.forM fun created =>
        createConfiguredLayer tenantId inventoryItemId costByWarehouse created.1 created.2) db
      (fun _ db' => ∃ added, db' = { db with nextId := db'.nextId, layers := db.layers ++ added } ∧
        List.Forall₂ (MadeFrom tenantId inventoryItemId) created added) fun _ => True := by
  induction created generalizing db with
  | nil => exact ⟨[], by rw [List.append_nil], .nil⟩
  | cons first rest ih =>
      rw [List.forM_eq_forM, List.forM_cons, post_bind]
      unfold createConfiguredLayer
      simp only [post_bind]
      rw [post_expect]
      refine ⟨fun unitCost _ => ?_, fun _ => trivial⟩
      refine ih.mono (fun _ db₂ hrest => ?_) fun _ h => h
      obtain ⟨added, hdb, hadded⟩ := hrest
      refine ⟨_, ?_, .cons (configuredLayer_madeFrom first unitCost db.nextId) hadded⟩
      rw [hdb]
      show { db with nextId := _, layers := (db.layers ++ [_]) ++ added } = _
      rw [List.append_assoc]
      rfl

/-- The same rows, but for averages that are set; those of `stocks` are. -/
def AveragesSet (stocks : List InventoryStock) (f : InventoryStock → InventoryStock) : Prop :=
  ∀ row, f row = { row with averageUnitCost := (f row).averageUnitCost } ∧
    (row.averageUnitCost ≠ none → (f row).averageUnitCost ≠ none) ∧
    (row.id ∈ stocks.map (·.id) → (f row).averageUnitCost ≠ none)

theorem configureAverages_post (stocks : List InventoryStock) :
    Post (stocks.forM (configureAverage replayed costByWarehouse)) db
      (fun _ db' => ∃ f, db' = { db with stocks := db.stocks.map f } ∧ AveragesSet stocks f)
      fun _ => True := by
  induction stocks generalizing db with
  | nil =>
      refine ⟨id, by rw [List.map_id], fun row => ⟨rfl, id, fun h => ?_⟩⟩
      exact absurd h List.not_mem_nil
  | cons stock rest ih =>
      rw [List.forM_eq_forM, List.forM_cons, post_bind]
      unfold configureAverage
      simp only [post_bind]
      rw [post_expect]
      refine ⟨fun unitCost _ => ?_, fun _ => trivial⟩
      refine ih.mono (fun _ db₂ hrest => ?_) fun _ h => h
      obtain ⟨f, hdb, hf⟩ := hrest
      let g : InventoryStock → InventoryStock := fun row =>
        if row.id = stock.id then { row with averageUnitCost := some (storeDecimal unitCost) }
        else row
      refine ⟨f ∘ g, ?_, fun row => ?_⟩
      · rw [hdb, ← List.map_map]
        rfl
      · obtain ⟨hsame, hkept, hset⟩ := hf (g row)
        by_cases hid : row.id = stock.id
        · have hg : g row = { row with averageUnitCost := some (storeDecimal unitCost) } :=
            if_pos hid
          rw [hg] at hsame hkept hset
          have haverage := hkept (Option.some_ne_none (storeDecimal unitCost))
          rw [Function.comp_apply, hg]
          exact ⟨hsame, fun _ => haverage, fun _ => haverage⟩
        · have hg : g row = row := if_neg hid
          rw [hg] at hsame hkept hset
          rw [Function.comp_apply, hg]
          refine ⟨hsame, hkept, fun hmem => hset ?_⟩
          exact (List.mem_cons.mp hmem).resolve_left hid

/-- Committing the orders that are complete changes the movements, and makes no reservation
active. -/
theorem commitCompletedOrders_eq (db : DB) (tenantId inventoryItemId : Id) : ∃ movements,
    commitCompletedOrders tenantId inventoryItemId db = { db with movements := movements } ∧
    ∀ row ∈ movements, row.referenceType = some .orderReservation → row ∈ db.movements := by
  unfold commitCompletedOrders
  dsimp only
  generalize db.orders.filter _ = orders
  generalize db.movements.filter _ = completedReservations
  have hfold (current : DB) (hcurrent : ∃ movements, current = { db with movements := movements } ∧
      ∀ row ∈ movements, row.referenceType = some .orderReservation → row ∈ db.movements) :
      ∃ movements, orders.foldl (fun db order =>
        let staleReservationIds := (completedReservations.filter fun row =>
          row.referenceId = some order.id).map (·.id)
        db.updateMovements (fun row => row.id ∈ staleReservationIds ∧ row.tenantId = tenantId ∧
            row.referenceType = some .orderReservation) fun row =>
          { row with
            referenceType := some .orderReservationCommitted
            type := if tenantBusinessType db order.tenantId = some .cafe then .consumption
              else .sale }) current = { db with movements := movements } ∧
        ∀ row ∈ movements, row.referenceType = some .orderReservation → row ∈ db.movements := by
    induction orders generalizing current with
    | nil => exact hcurrent
    | cons order rest ih =>
        obtain ⟨movements, rfl, hactive⟩ := hcurrent
        refine ih _ ⟨_, rfl, fun row hrow htype => ?_⟩
        obtain ⟨old, hold, rfl⟩ := List.mem_map.mp hrow
        split at htype
        · cases htype
        · rename_i hkept
          rw [if_neg hkept]
          exact hactive old hold htype
  exact hfold db ⟨db.movements, rfl, fun row hrow _ => hrow⟩

theorem openingCostMap_post (costs : List InventoryOpeningCostDto)
    (start : Lib.OrderedMap (Option Id) ℚ) :
    Post (openingCostMap costs start) db (fun _ db' => db' = db) fun _ => True := by
  induction costs generalizing start with
  | nil => exact rfl
  | cons openingCost rest ih =>
      unfold openingCostMap
      rw [post_bind, post_require]
      exact ⟨fun _ => ih _, fun _ => trivial⟩

/-- What the checks of a request leave to choose. -/
structure Requested (dto : ConfigureInventoryValuationDto) : Prop where
  scope : dto.method = .movingWeightedAverage → dto.movingAverageScope ≠ none
  standard : dto.method = .standardCost → dto.standardCost ≠ none

theorem checkRequest_post : Post (checkRequest dto) db (fun _ db' => db' = db ∧ Requested dto)
    fun _ => True := by
  unfold checkRequest
  simp only [post_bind]
  rw [post_require]
  refine ⟨fun hscope => ?_, fun _ => trivial⟩
  rw [post_require]
  refine ⟨fun _ => ?_, fun _ => trivial⟩
  rw [post_require]
  refine ⟨fun hstandard => ?_, fun _ => trivial⟩
  rw [post_require]
  refine ⟨fun _ => ⟨rfl, ?_⟩, fun _ => trivial⟩
  exact ⟨fun hmethod hnone => hscope ⟨hmethod, hnone⟩,
    fun hmethod hnone => hstandard ⟨hmethod, hnone⟩⟩

/-- The layers of a FIFO item, warehouse by warehouse. -/
def createdLayers (replayed : ReplayedHistory) : List (Option Id × HistoricalFifoLayer) :=
  replayed.historicalFifo.flatMap fun balance =>
    balance.layers.map fun layer => (balance.warehouseId, layer)

/-- The stock rows an opening cost may be needed for. -/
def activeStocks (db : DB) (tenantId inventoryItemId : Id) : List InventoryStock :=
  (valuedStocks db tenantId inventoryItemId).filter fun stock => 0 < stock.quantity

/-- How the database is written, `db` being the one with the completed orders committed. -/
structure ConfiguredTo (stamp : Stamp) (tenantId inventoryItemId : Id)
    (dto : ConfigureInventoryValuationDto) (db db' : DB) : Prop where
  movements : db'.movements = db.movements
  items : ∃ db₁ replayed costByWarehouse, db'.items = db.items.map fun row =>
    if row.id = inventoryItemId then configuredItem stamp db₁ dto replayed costByWarehouse
      (activeStocks db tenantId inventoryItemId) row
    else row
  stocks : ∃ f, db'.stocks = (clearConfigured inventoryItemId db).stocks.map f ∧
    (∀ row, f row = { row with averageUnitCost := (f row).averageUnitCost }) ∧
    (dto.method = .movingWeightedAverage → dto.movingAverageScope = some .perWarehouse →
      AveragesSet (activeStocks db tenantId inventoryItemId) f)
  layers : ∃ added, db'.layers = (clearConfigured inventoryItemId db).layers ++ added ∧
    (dto.method = .fifo → List.Forall₂ (MadeFrom tenantId inventoryItemId)
      (createdLayers (replayHistory stamp db tenantId inventoryItemId .fifo
        (valuedStocks db tenantId inventoryItemId))) added)

theorem writeConfigured_post {stocks : List InventoryStock} :
    Post (writeConfigured tenantId inventoryItemId dto replayed costByWarehouse stocks) db
      (fun _ db' => ∃ nextId f added, db' = { db with
          nextId := nextId, stocks := db.stocks.map f, layers := db.layers ++ added } ∧
        (∀ row, f row = { row with averageUnitCost := (f row).averageUnitCost }) ∧
        (dto.method = .movingWeightedAverage → dto.movingAverageScope = some .perWarehouse →
          AveragesSet stocks f) ∧
        (dto.method = .fifo →
          List.Forall₂ (MadeFrom tenantId inventoryItemId) (createdLayers replayed) added))
      fun _ => True := by
  have hlayers : db.layers = db.layers ++ [] := (List.append_nil _).symm
  have hstocks : db.stocks = db.stocks.map id := (List.map_id _).symm
  unfold writeConfigured
  rw [post_ite, post_ite]
  refine ⟨fun hfifo => ?_, fun hfifo => ⟨fun haverage => ?_, fun haverage => ?_⟩⟩
  · refine (createConfiguredLayers_post _).mono (fun _ db' hcreated => ?_) fun _ h => h
    obtain ⟨added, hdb, hadded⟩ := hcreated
    refine ⟨db'.nextId, id, added, ?_, fun _ => rfl, fun hmethod => ?_, fun _ => hadded⟩
    · rw [hdb, List.map_id]
    · rw [hfifo] at hmethod
      cases hmethod
  · refine (configureAverages_post stocks).mono (fun _ db' hset => ?_) fun _ h => h
    obtain ⟨f, hdb, hf⟩ := hset
    refine ⟨db.nextId, f, [], ?_, fun row => (hf row).1, fun _ _ => hf, fun hmethod => ?_⟩
    · rw [hdb, List.append_nil]
    · exact absurd hmethod hfifo
  · refine ⟨db.nextId, id, [], ?_, fun _ => rfl, fun hmethod hscope => ?_, fun hmethod => ?_⟩
    · rw [List.map_id, List.append_nil]
    · exact absurd ⟨hmethod, hscope⟩ haverage
    · exact absurd hmethod hfifo

theorem configureValuation_post :
    Post (configureValuation stamp tenantId inventoryItemId dto) db (fun _ db' =>
      (∃ item, db.items.find? (fun row => row.id = inventoryItemId ∧ row.tenantId = tenantId) =
        some item) ∧ Requested dto ∧
      ConfiguredTo stamp tenantId inventoryItemId dto
        (commitCompletedOrders tenantId inventoryItemId db) db') fun _ => True := by
  unfold configureValuation checkOpeningCosts
  simp only [post_bind, post_get, post_set, post_modify, post_expect, post_require]
  refine ⟨fun item hitem => ⟨fun _ => ?_, fun _ => trivial⟩, fun _ => trivial⟩
  refine checkRequest_post.mono (fun _ db₁ hrequest => ?_) fun _ h => h
  obtain ⟨rfl, hrequested⟩ := hrequest
  refine ⟨fun _ => ?_, fun _ => trivial⟩
  refine (openingCostMap_post dto.openingCosts .empty).mono (fun costByWarehouse db₁ hdb => ?_)
    fun _ h => h
  subst hdb
  refine ⟨fun _ => ⟨fun _ => ⟨fun _ => ?_, fun _ => trivial⟩, fun _ => trivial⟩, fun _ => trivial⟩
  refine writeConfigured_post.mono (fun _ db₂ hwritten => ?_) fun _ h => h
  obtain ⟨nextId, f, added, rfl, hsame, haverages, hadded⟩ := hwritten
  refine ⟨⟨item, hitem⟩, hrequested, ?_⟩
  refine ⟨rfl, ⟨_, _, _, rfl⟩, ⟨f, rfl, hsame, haverages⟩, ⟨added, rfl, fun hmethod => ?_⟩⟩
  have hcreated := hadded hmethod
  rw [hmethod] at hcreated
  exact hcreated

end Written

/-! ## The quantities that are left -/

/-- What the layers of the item hold at a warehouse, those of the sources asked for. -/
def layeredQuantity (db : DB) (tenantId inventoryItemId : Id) (warehouseId : Option Id)
    (source : SourceType → Bool) : ℚ :=
  ((db.layers.filter fun layer => layer.tenantId = tenantId ∧
    layer.inventoryItemId = inventoryItemId ∧ layer.warehouseId = warehouseId ∧
    source layer.sourceType = true).map (·.remainingQuantity)).sum

/-- What is in stock of the item at a warehouse. -/
def onHandAt (db : DB) (inventoryItemId : Id) (warehouseId : Option Id) : ℚ :=
  ((db.stocks.filter fun stock => stock.inventoryItemId = inventoryItemId).map fun stock =>
    if stock.warehouseId = warehouseId then stock.quantity else 0).sum

/-- What the recorded history of a warehouse leaves there, where the replay accepts it, else
what the replay was told is there. -/
def replayedQuantity (stamp : Stamp) (db : DB) (tenantId inventoryItemId : Id)
    (warehouseId : Option Id) : ℚ :=
  historicalQuantity (replayCosts (historyOf stamp db tenantId inventoryItemId))
    (stamp.createdAt db.nextId) warehouseId inventoryItemId
    ((valuedStocks db tenantId inventoryItemId).map fun stock =>
      if stock.warehouseId = warehouseId then stock.quantity else 0).sum
    ((historicalMovements (historyOf stamp db tenantId inventoryItemId)).filter fun movement =>
      movement.warehouseId = warehouseId)

/-- What the columns add to the layers that are made at a warehouse, or take from them. -/
def roundedOff (stamp : Stamp) (db : DB) (tenantId inventoryItemId : Id)
    (warehouseId : Option Id) : ℚ :=
  ((createdLayers (replayHistory stamp db tenantId inventoryItemId .fifo
    (valuedStocks db tenantId inventoryItemId))).map fun created =>
      if created.1 = warehouseId then storeDecimal created.2.quantity - created.2.quantity
      else 0).sum

section Quantities

variable {stamp : Stamp} {db db' : DB} {tenantId inventoryItemId : Id}
  {dto : ConfigureInventoryValuationDto} {warehouseId : Option Id}

/-- The stock rows of an item: one for each warehouse, and none below zero, with what is
actively reserved. -/
structure StockRowsOf (db : DB) (tenantId inventoryItemId : Id) : Prop where
  one : ((db.stocks.filter fun stock => stock.inventoryItemId = inventoryItemId).map
    (·.warehouseId)).Nodup
  nonneg : ∀ stock ∈ db.stocks, stock.inventoryItemId = inventoryItemId → 0 ≤ stock.quantity
  reserved : ∀ row ∈ db.movements, row.inventoryItemId = inventoryItemId →
    row.referenceType = some .orderReservation → 0 ≤ row.quantity

namespace StockRowsOf

theorem reservedQuantity_nonneg (h : StockRowsOf db tenantId inventoryItemId) :
    0 ≤ reservedQuantity db tenantId inventoryItemId warehouseId := by
  refine List.sum_nonneg fun q hq => ?_
  obtain ⟨row, hrow, rfl⟩ := List.mem_map.mp hq
  obtain ⟨hrow, hactive⟩ := List.mem_filter.mp hrow
  have hactive := of_decide_eq_true hactive
  exact h.reserved row hrow hactive.2.1 hactive.2.2.1

theorem onHandAt_eq (h : StockRowsOf db tenantId inventoryItemId) {stock : InventoryStock}
    (hstock : stock ∈ db.stocks) (hitem : stock.inventoryItemId = inventoryItemId) :
    onHandAt db inventoryItemId stock.warehouseId = stock.quantity := by
  have hrow : stock ∈ db.stocks.filter fun stock => stock.inventoryItemId = inventoryItemId :=
    List.mem_filter.mpr ⟨hstock, decide_eq_true hitem⟩
  have hone := List.pairwise_map.mp h.one
  have honly := hone.imp (S := fun r s => ¬ (r.warehouseId = stock.warehouseId ∧
    s.warehouseId = stock.warehouseId)) fun hne hboth => hne (hboth.1.trans hboth.2.symm)
  exact Lib.sum_unique honly hrow rfl (·.quantity)

theorem valued_nonneg (h : StockRowsOf db tenantId inventoryItemId) :
    ∀ stock ∈ (valuedStocks db tenantId inventoryItemId).map fun stock =>
      (stock.warehouseId, stock.quantity), 0 ≤ stock.2 := by
  intro entry hentry
  obtain ⟨stock, hstock, rfl⟩ := List.mem_map.mp hentry
  obtain ⟨row, hrow, rfl⟩ := List.mem_map.mp hstock
  obtain ⟨hrow, hitem⟩ := List.mem_filter.mp hrow
  exact add_nonneg (h.nonneg row hrow (of_decide_eq_true hitem)) h.reservedQuantity_nonneg

theorem valued_nodup (h : StockRowsOf db tenantId inventoryItemId) :
    (((valuedStocks db tenantId inventoryItemId).map fun stock =>
      (stock.warehouseId, stock.quantity)).map Prod.fst).Nodup := by
  unfold valuedStocks
  rw [List.map_map, List.map_map]
  exact h.one

end StockRowsOf

/-- The layers that are replayed hold what the history leaves. -/
theorem createdLayers_quantity (h : StockRowsOf db tenantId inventoryItemId) :
    ((createdLayers (replayHistory stamp db tenantId inventoryItemId .fifo
      (valuedStocks db tenantId inventoryItemId))).map fun created =>
        if created.1 = warehouseId then created.2.quantity else 0).sum =
    replayedQuantity stamp db tenantId inventoryItemId warehouseId := by
  have hsum (balances : List HistoricalFifoBalance) :
      ((balances.flatMap fun balance =>
        balance.layers.map fun layer => (balance.warehouseId, layer)).map fun created =>
          if created.1 = warehouseId then created.2.quantity else 0).sum =
      (balances.map fun balance =>
        if balance.warehouseId = warehouseId then layerQuantity balance.layers else 0).sum := by
    induction balances with
    | nil => rfl
    | cons balance rest ih =>
        rw [List.flatMap_cons, List.map_append, List.sum_append, ih, List.map_cons, List.sum_cons,
          List.map_map]
        congr 1
        by_cases hhere : balance.warehouseId = warehouseId
        · rw [if_pos hhere]
          exact congrArg List.sum (List.map_congr_left fun layer _ => if_pos hhere)
        · rw [if_neg hhere]
          refine List.sum_eq_zero fun q hq => ?_
          obtain ⟨layer, _, rfl⟩ := List.mem_map.mp hq
          exact if_neg hhere
  unfold createdLayers replayHistory
  dsimp only
  rw [if_pos rfl, hsum, reconstructed_quantity h.valued_nonneg, mapOf_getD h.valued_nodup,
    List.map_map]
  rfl

theorem sum_madeFrom {created : List (Option Id × HistoricalFifoLayer)}
    {added : List InventoryCostLayer}
    (h : List.Forall₂ (MadeFrom tenantId inventoryItemId) created added) :
    ((added.filter fun layer => layer.tenantId = tenantId ∧
      layer.inventoryItemId = inventoryItemId ∧ layer.warehouseId = warehouseId ∧
      configuredSource layer.sourceType = true).map (·.remainingQuantity)).sum =
    (created.map fun created =>
      if created.1 = warehouseId then storeDecimal created.2.quantity else 0).sum := by
  induction h with
  | nil => rfl
  | @cons first layer _ _ hfirst _ ih =>
      rw [List.map_cons, List.sum_cons, ← ih]
      by_cases hhere : first.1 = warehouseId
      · have hlayer : layer.tenantId = tenantId ∧ layer.inventoryItemId = inventoryItemId ∧
            layer.warehouseId = warehouseId ∧ configuredSource layer.sourceType = true :=
          ⟨hfirst.tenant, hfirst.item, hfirst.warehouse.trans hhere, hfirst.source⟩
        rw [List.filter_cons_of_pos, List.map_cons, List.sum_cons, if_pos hhere, hfirst.remaining]
        exact decide_eq_true hlayer
      · rw [List.filter_cons_of_neg, if_neg hhere, zero_add]
        intro hlayer
        have hlayer := of_decide_eq_true hlayer
        exact hhere (hfirst.warehouse.symm.trans hlayer.2.2.1)

/-- And as they are stored, what the columns make of it. -/
theorem storedLayers_quantity (h : StockRowsOf db tenantId inventoryItemId) :
    ((createdLayers (replayHistory stamp db tenantId inventoryItemId .fifo
      (valuedStocks db tenantId inventoryItemId))).map fun created =>
        if created.1 = warehouseId then storeDecimal created.2.quantity else 0).sum =
    replayedQuantity stamp db tenantId inventoryItemId warehouseId +
      roundedOff stamp db tenantId inventoryItemId warehouseId := by
  unfold roundedOff
  rw [← createdLayers_quantity h, ← List.sum_map_add]
  refine congrArg List.sum (List.map_congr_left fun created _ => ?_)
  by_cases hhere : created.1 = warehouseId
  · rw [if_pos hhere, if_pos hhere, if_pos hhere]
    ring
  · rw [if_neg hhere, if_neg hhere, if_neg hhere, add_zero]

/-- Layers of at most six decimals are stored as they are. -/
theorem roundedOff_eq_zero (h : ∀ created ∈ createdLayers (replayHistory stamp db tenantId
      inventoryItemId .fifo (valuedStocks db tenantId inventoryItemId)),
      storeDecimal created.2.quantity = created.2.quantity) :
    roundedOff stamp db tenantId inventoryItemId warehouseId = 0 := by
  refine List.sum_eq_zero fun q hq => ?_
  obtain ⟨created, hcreated, rfl⟩ := List.mem_map.mp hq
  rw [h created hcreated, sub_self, ite_self]

theorem source_of_madeFrom {created : List (Option Id × HistoricalFifoLayer)}
    {added : List InventoryCostLayer} {layer : InventoryCostLayer}
    (h : List.Forall₂ (MadeFrom tenantId inventoryItemId) created added) (hlayer : layer ∈ added) :
    configuredSource layer.sourceType = true := by
  induction h with
  | nil => exact absurd hlayer List.not_mem_nil
  | cons hfirst _ ih =>
      rcases List.mem_cons.mp hlayer with rfl | hlayer
      · exact hfirst.source
      · exact ih hlayer

namespace ConfiguredTo

variable (h : ConfiguredTo stamp tenantId inventoryItemId dto db db')

include h

theorem reservedQuantity_eq : reservedQuantity db' tenantId inventoryItemId warehouseId =
    reservedQuantity db tenantId inventoryItemId warehouseId := by
  unfold reservedQuantity
  rw [h.movements]

/-- A stock row is as it was, but for its average. -/
theorem stock_of_mem : ∃ g : InventoryStock → InventoryStock, db'.stocks = db.stocks.map g ∧
    ∀ row, (g row).id = row.id ∧ (g row).warehouseId = row.warehouseId ∧
      (g row).inventoryItemId = row.inventoryItemId ∧ (g row).quantity = row.quantity ∧
      (dto.method = .movingWeightedAverage → dto.movingAverageScope = some .perWarehouse →
        row.id ∈ (activeStocks db tenantId inventoryItemId).map (·.id) →
          (g row).averageUnitCost ≠ none) := by
  obtain ⟨f, hstocks, hsame, haverages⟩ := h.stocks
  unfold clearConfigured at hstocks
  dsimp only at hstocks
  rw [List.map_map] at hstocks
  refine ⟨_, hstocks, fun row => ?_⟩
  rw [Function.comp_apply]
  by_cases hitem : row.inventoryItemId = inventoryItemId
  · rw [if_pos hitem]
    have hrow := hsame { row with averageUnitCost := none }
    refine ⟨?_, ?_, ?_, ?_, fun hmethod hscope hmem => ?_⟩
    · rw [hrow]
    · rw [hrow]
    · rw [hrow]
    · rw [hrow]
    · exact (haverages hmethod hscope { row with averageUnitCost := none }).2.2 hmem
  · rw [if_neg hitem]
    have hrow := hsame row
    refine ⟨?_, ?_, ?_, ?_, fun hmethod hscope hmem => ?_⟩
    · rw [hrow]
    · rw [hrow]
    · rw [hrow]
    · rw [hrow]
    · exact (haverages hmethod hscope row).2.2 hmem

theorem onHandAt_eq : onHandAt db' inventoryItemId warehouseId =
    onHandAt db inventoryItemId warehouseId := by
  obtain ⟨g, hstocks, hg⟩ := h.stock_of_mem
  unfold onHandAt
  rw [hstocks, List.filter_map, List.map_map]
  have hitem : ((fun stock : InventoryStock => decide (stock.inventoryItemId = inventoryItemId)) ∘
      g) = fun stock => decide (stock.inventoryItemId = inventoryItemId) := by
    funext row
    rw [Function.comp_apply, (hg row).2.2.1]
  rw [hitem]
  refine congrArg List.sum (List.map_congr_left fun row _ => ?_)
  rw [Function.comp_apply, (hg row).2.1, (hg row).2.2.2.1]

theorem created_quantity (hrows : StockRowsOf db tenantId inventoryItemId)
    (hmethod : dto.method = .fifo) :
    layeredQuantity db' tenantId inventoryItemId warehouseId configuredSource =
      replayedQuantity stamp db tenantId inventoryItemId warehouseId +
        roundedOff stamp db tenantId inventoryItemId warehouseId := by
  obtain ⟨added, hlayers, hadded⟩ := h.layers
  have hkept : (clearConfigured inventoryItemId db).layers.filter (fun layer =>
      layer.tenantId = tenantId ∧ layer.inventoryItemId = inventoryItemId ∧
        layer.warehouseId = warehouseId ∧ configuredSource layer.sourceType = true) = [] := by
    refine List.filter_eq_nil_iff.mpr fun layer hlayer hhere => ?_
    have hkept := of_decide_eq_true (List.mem_filter.mp hlayer).2
    have hhere := of_decide_eq_true hhere
    exact hkept ⟨hhere.2.1, hhere.2.2.2⟩
  unfold layeredQuantity
  rw [hlayers, List.filter_append, hkept, List.nil_append, sum_madeFrom (hadded hmethod),
    storedLayers_quantity hrows]

theorem other_quantity (hmethod : dto.method = .fifo) :
    layeredQuantity db' tenantId inventoryItemId warehouseId (fun s => !configuredSource s) =
      layeredQuantity db tenantId inventoryItemId warehouseId fun s => !configuredSource s := by
  obtain ⟨added, hlayers, hadded⟩ := h.layers
  have hnew : added.filter (fun layer => layer.tenantId = tenantId ∧
      layer.inventoryItemId = inventoryItemId ∧ layer.warehouseId = warehouseId ∧
        (!configuredSource layer.sourceType) = true) = [] := by
    refine List.filter_eq_nil_iff.mpr fun layer hlayer hhere => ?_
    have hother := (of_decide_eq_true hhere).2.2.2
    rw [source_of_madeFrom (hadded hmethod) hlayer] at hother
    cases hother
  unfold layeredQuantity
  rw [hlayers, List.filter_append, hnew, List.append_nil]
  unfold clearConfigured
  dsimp only
  rw [List.filter_filter]
  refine congrArg (fun rows => (List.map InventoryCostLayer.remainingQuantity rows).sum)
    (List.filter_congr fun layer _ => ?_)
  refine Bool.and_eq_left_iff_imp.mpr fun hhere => decide_eq_true fun hmade => ?_
  have hother := (of_decide_eq_true hhere).2.2.2
  rw [hmade.2] at hother
  cases hother

end ConfiguredTo

end Quantities

/-! ## The valuation that is left -/

section Valued

variable {stamp : Stamp} {db db' : DB} {tenantId inventoryItemId : Id}
  {dto : ConfigureInventoryValuationDto}

/-- What a configuration is for: the item is valued, and the layers of a FIFO item hold what is
in stock and what is actively reserved. -/
structure Established (db : DB) (tenantId inventoryItemId : Id) (method : ValuationMethod) :
    Prop where
  valued : ∃ valuation, getValuation db tenantId inventoryItemId = .ok valuation ∧
    valuation.status = .valued
  covered : method = .fifo → ∀ warehouseId,
    layeredQuantity db tenantId inventoryItemId warehouseId configuredSource =
      onHandAt db inventoryItemId warehouseId +
        reservedQuantity db tenantId inventoryItemId warehouseId

/-- The history of every warehouse leaves what is there, as far as the columns keep it, and
nothing stands in other layers of the item. -/
structure HistoryFits (stamp : Stamp) (db : DB) (tenantId inventoryItemId : Id) : Prop where
  exact : ∀ warehouseId, replayedQuantity stamp db tenantId inventoryItemId warehouseId +
      roundedOff stamp db tenantId inventoryItemId warehouseId =
    onHandAt db inventoryItemId warehouseId +
      reservedQuantity db tenantId inventoryItemId warehouseId
  others : ∀ stock ∈ db.stocks, stock.inventoryItemId = inventoryItemId →
    layeredQuantity db tenantId inventoryItemId stock.warehouseId
      (fun source => !configuredSource source) = 0

theorem id_of_found {item : InventoryItem} (hitem : db.items.find? (fun row =>
      row.id = inventoryItemId ∧ row.tenantId = tenantId) = some item) :
    item.id = inventoryItemId ∧ item.tenantId = tenantId := by
  have hfound := List.find?_some hitem
  exact of_decide_eq_true hfound

theorem valued_iff {item : InventoryItem} (hitem : db.items.find? (fun row =>
      row.id = inventoryItemId ∧ row.tenantId = tenantId) = some item)
    (hmethod : item.valuationMethod ≠ none) :
    (∃ valuation, getValuation db tenantId inventoryItemId = .ok valuation ∧
      valuation.status = .valued) ↔
    ∀ stock ∈ db.stocks, stock.inventoryItemId = inventoryItemId →
      (balanceOf db item stock).inventoryValue ≠ none := by
  have hid : item.id = inventoryItemId := (id_of_found hitem).1
  have hsome := Option.isSome_iff_ne_none.mpr hmethod
  have hall : ((db.stocks.filter fun row => row.inventoryItemId = item.id).map
      (balanceOf db item)).all (fun b => b.inventoryValue.isSome) = true ↔
      ∀ stock ∈ db.stocks, stock.inventoryItemId = inventoryItemId →
        (balanceOf db item stock).inventoryValue ≠ none := by
    rw [List.all_map, List.all_eq_true]
    constructor
    · intro h stock hstock hof
      have hvalue := h stock (List.mem_filter.mpr ⟨hstock, decide_eq_true (hof.trans hid.symm)⟩)
      exact Option.isSome_iff_ne_none.mp hvalue
    · intro h stock hstock
      obtain ⟨hstock, hof⟩ := List.mem_filter.mp hstock
      exact Option.isSome_iff_ne_none.mpr (h stock hstock ((of_decide_eq_true hof).trans hid))
  rw [← hall]
  unfold getValuation
  rw [hitem]
  dsimp only
  rw [hsome, Bool.true_and]
  constructor
  · rintro ⟨valuation, hok, hstatus⟩
    cases hok
    dsimp only at hstatus
    rw [if_pos rfl] at hstatus
    split at hstatus
    · assumption
    · cases hstatus
  · intro hvalues
    refine ⟨_, rfl, ?_⟩
    dsimp only
    rw [if_pos rfl, if_pos hvalues]

theorem balanceOf_fifo {item : InventoryItem} (hmethod : item.valuationMethod = some .fifo)
    (stock : InventoryStock) : (balanceOf db item stock).inventoryValue ≠ none ↔
      ((db.layers.filter fun layer => layer.tenantId = item.tenantId ∧
        layer.inventoryItemId = item.id ∧ layer.warehouseId = stock.warehouseId).map
          (·.remainingQuantity)).sum =
      stock.quantity + reservedQuantity db item.tenantId item.id stock.warehouseId := by
  unfold balanceOf
  dsimp only
  rw [hmethod]
  dsimp only
  split
  · rename_i hequal
    exact iff_of_true (Option.some_ne_none _) hequal
  · rename_i hdiffer
    exact iff_of_false (not_not.mpr rfl) hdiffer

theorem balanceOf_average {item : InventoryItem}
    (hmethod : item.valuationMethod = some .movingWeightedAverage) (stock : InventoryStock) :
    (balanceOf db item stock).inventoryValue =
      valueAt (stock.quantity + reservedQuantity db item.tenantId item.id stock.warehouseId)
        (stockUnitCost item stock) := by
  unfold balanceOf
  dsimp only
  rw [hmethod]

theorem balanceOf_standard {item : InventoryItem}
    (hmethod : item.valuationMethod = some .standardCost) (stock : InventoryStock) :
    (balanceOf db item stock).inventoryValue =
      valueAt (stock.quantity + reservedQuantity db item.tenantId item.id stock.warehouseId)
        item.standardCost := by
  unfold balanceOf
  dsimp only
  rw [hmethod]

theorem valueAt_ne_none {quantity : ℚ} {unitCost : Option ℚ}
    (h : quantity ≠ 0 → unitCost ≠ none) : valueAt quantity unitCost ≠ none := by
  cases unitCost with
  | some c => exact Option.some_ne_none _
  | none =>
      unfold valueAt
      dsimp only
      by_cases hzero : quantity = 0
      · rw [if_pos hzero]
        exact Option.some_ne_none 0
      · exact absurd rfl (h hzero)

/-- The layers of a warehouse, those that are made and the others. -/
theorem layeredQuantity_add (warehouseId : Option Id) (source : SourceType → Bool) :
    ((db.layers.filter fun layer => layer.tenantId = tenantId ∧
      layer.inventoryItemId = inventoryItemId ∧ layer.warehouseId = warehouseId).map
        (·.remainingQuantity)).sum =
    layeredQuantity db tenantId inventoryItemId warehouseId source +
      layeredQuantity db tenantId inventoryItemId warehouseId fun s => !source s := by
  have hpart (p : SourceType → Bool) : (db.layers.filter fun layer => layer.tenantId = tenantId ∧
      layer.inventoryItemId = inventoryItemId ∧ layer.warehouseId = warehouseId).filter
        (fun layer => p layer.sourceType) =
      db.layers.filter fun layer => layer.tenantId = tenantId ∧
        layer.inventoryItemId = inventoryItemId ∧ layer.warehouseId = warehouseId ∧
        p layer.sourceType = true := by
    rw [List.filter_filter]
    refine List.filter_congr fun layer _ => ?_
    rw [Bool.eq_iff_iff, Bool.and_eq_true, decide_eq_true_iff, decide_eq_true_iff]
    tauto
  unfold layeredQuantity
  rw [← hpart source, ← hpart fun s => !source s]
  exact Lib.sum_filter_add_sum_filter_not _
    (fun layer : InventoryCostLayer => source layer.sourceType) _

namespace ConfiguredTo

variable (h : ConfiguredTo stamp tenantId inventoryItemId dto db db')

include h

/-- The item is found again, as it was configured. -/
theorem item_found {item : InventoryItem} (hitem : db.items.find? (fun row =>
      row.id = inventoryItemId ∧ row.tenantId = tenantId) = some item) :
    ∃ db₁ replayed costByWarehouse, db'.items.find? (fun row =>
        row.id = inventoryItemId ∧ row.tenantId = tenantId) =
      some (configuredItem stamp db₁ dto replayed costByWarehouse
        (activeStocks db tenantId inventoryItemId) item) := by
  obtain ⟨db₁, replayed, costByWarehouse, hitems⟩ := h.items
  refine ⟨db₁, replayed, costByWarehouse, ?_⟩
  have hid : item.id = inventoryItemId := (id_of_found hitem).1
  rw [hitems, List.find?_map]
  have hsame : ((fun row : InventoryItem => decide (row.id = inventoryItemId ∧
      row.tenantId = tenantId)) ∘ fun row => if row.id = inventoryItemId then
        configuredItem stamp db₁ dto replayed costByWarehouse
          (activeStocks db tenantId inventoryItemId) row
      else row) = fun row => decide (row.id = inventoryItemId ∧ row.tenantId = tenantId) := by
    funext row
    rw [Function.comp_apply]
    by_cases hrow : row.id = inventoryItemId
    · rw [if_pos hrow]
      rfl
    · rw [if_neg hrow]
  rw [hsame, hitem, Option.map_some, if_pos hid]

theorem fifo_value_iff (hmethod : dto.method = .fifo) {item : InventoryItem}
    (hid : item.id = inventoryItemId) (htenant : item.tenantId = tenantId) (db₁ : DB)
    (replayed : ReplayedHistory) (costByWarehouse : Lib.OrderedMap (Option Id) ℚ)
    (stock : InventoryStock) :
    (balanceOf db' (configuredItem stamp db₁ dto replayed costByWarehouse
      (activeStocks db tenantId inventoryItemId) item) stock).inventoryValue ≠ none ↔
    layeredQuantity db' tenantId inventoryItemId stock.warehouseId configuredSource +
      layeredQuantity db tenantId inventoryItemId stock.warehouseId (fun s => !configuredSource s) =
    stock.quantity + reservedQuantity db tenantId inventoryItemId stock.warehouseId := by
  rw [← h.other_quantity hmethod, ← layeredQuantity_add, ← h.reservedQuantity_eq, ← hid, ← htenant]
  exact balanceOf_fifo (congrArg some hmethod) stock

/-- What is not in the layers of a FIFO item is always valued. -/
theorem value_ne_none (hrows : StockRowsOf db tenantId inventoryItemId)
    (hrequested : Requested dto) (hmethod : dto.method ≠ .fifo) {item : InventoryItem}
    (hid : item.id = inventoryItemId) (htenant : item.tenantId = tenantId) (db₁ : DB)
    (replayed : ReplayedHistory) (costByWarehouse : Lib.OrderedMap (Option Id) ℚ)
    {stock : InventoryStock} (hstock : stock ∈ db'.stocks)
    (hof : stock.inventoryItemId = inventoryItemId) :
    (balanceOf db' (configuredItem stamp db₁ dto replayed costByWarehouse
      (activeStocks db tenantId inventoryItemId) item) stock).inventoryValue ≠ none := by
  obtain ⟨g, hstocks, hg⟩ := h.stock_of_mem
  rw [hstocks] at hstock
  obtain ⟨row, hrow, rfl⟩ := List.mem_map.mp hstock
  obtain ⟨hrowId, hrowWarehouse, hrowItem, hrowQuantity, haverage⟩ := hg row
  have hofRow : row.inventoryItemId = inventoryItemId := hrowItem.symm.trans hof
  let valued : InventoryStock := { row with
    quantity := row.quantity + reservedQuantity db tenantId inventoryItemId row.warehouseId }
  -- a row of something is one of those that are looked at
  have hactive : 0 < valued.quantity → valued ∈ activeStocks db tenantId inventoryItemId := by
    intro hpos
    refine List.mem_filter.mpr ⟨?_, decide_eq_true hpos⟩
    exact List.mem_map_of_mem (List.mem_filter.mpr ⟨hrow, decide_eq_true hofRow⟩)
  have hnonneg : 0 ≤ valued.quantity :=
    add_nonneg (hrows.nonneg row hrow hofRow) hrows.reservedQuantity_nonneg
  have hquantity : (g row).quantity + reservedQuantity db' item.tenantId item.id
      (g row).warehouseId = valued.quantity := by
    rw [hid, htenant, h.reservedQuantity_eq, hrowQuantity, hrowWarehouse]
  cases hmethod' : dto.method with
  | fifo => exact absurd hmethod' hmethod
  | standardCost =>
      rw [balanceOf_standard (congrArg some hmethod')]
      refine valueAt_ne_none fun _ hnone => hrequested.standard hmethod' ?_
      exact Option.map_eq_none_iff.mp hnone
  | movingWeightedAverage =>
      rw [balanceOf_average (congrArg some hmethod')]
      refine valueAt_ne_none fun hne => ?_
      have hpos : 0 < valued.quantity := lt_of_le_of_ne hnonneg fun hzero =>
        hne (hquantity.trans hzero.symm)
      have hmem := hactive hpos
      unfold stockUnitCost configuredItem
      dsimp only
      cases hscope : dto.movingAverageScope with
      | none => exact absurd hscope (hrequested.scope hmethod')
      | some scope =>
          cases scope with
          | perItem =>
              have htotal : 0 < ((activeStocks db tenantId inventoryItemId).map
                  (·.quantity)).sum := by
                have hpositive : ∀ q ∈ (activeStocks db tenantId inventoryItemId).map
                    (·.quantity), 0 < q := by
                  intro q hq
                  obtain ⟨other, hother, rfl⟩ := List.mem_map.mp hq
                  exact of_decide_eq_true (List.mem_filter.mp hother).2
                exact List.sum_pos _ hpositive (List.ne_nil_of_mem (List.mem_map_of_mem hmem))
              rw [if_pos rfl, if_pos ⟨hmethod', rfl, htotal⟩]
              exact Option.some_ne_none _
          | perWarehouse =>
              rw [if_neg (by decide)]
              exact haverage hmethod' hscope (List.mem_map.mpr ⟨valued, hmem, rfl⟩)

theorem established_iff (hrows : StockRowsOf db tenantId inventoryItemId)
    (hrequested : Requested dto) {item : InventoryItem} (hitem : db.items.find? (fun row =>
      row.id = inventoryItemId ∧ row.tenantId = tenantId) = some item) :
    Established db' tenantId inventoryItemId dto.method ↔
      (dto.method = .fifo → HistoryFits stamp db tenantId inventoryItemId) := by
  obtain ⟨db₁, replayed, costByWarehouse, hfound⟩ := h.item_found hitem
  obtain ⟨hid, htenant⟩ := id_of_found hitem
  have hvalued := valued_iff hfound (Option.some_ne_none dto.method)
  by_cases hmethod : dto.method = .fifo
  · have hcovered (warehouseId : Option Id) :
        layeredQuantity db' tenantId inventoryItemId warehouseId configuredSource =
            onHandAt db' inventoryItemId warehouseId +
              reservedQuantity db' tenantId inventoryItemId warehouseId ↔
          replayedQuantity stamp db tenantId inventoryItemId warehouseId +
              roundedOff stamp db tenantId inventoryItemId warehouseId =
            onHandAt db inventoryItemId warehouseId +
              reservedQuantity db tenantId inventoryItemId warehouseId := by
      rw [h.created_quantity hrows hmethod, h.onHandAt_eq, h.reservedQuantity_eq]
    obtain ⟨g, hstocks, hg⟩ := h.stock_of_mem
    constructor
    · intro hestablished _
      have hcreated := hestablished.covered hmethod
      refine ⟨fun warehouseId => (hcovered warehouseId).mp (hcreated warehouseId), ?_⟩
      intro stock hstock hof
      obtain ⟨-, hwarehouse, hofItem, hquantity, -⟩ := hg stock
      have hmem : g stock ∈ db'.stocks := by
        rw [hstocks]
        exact List.mem_map_of_mem hstock
      have hvalue := hvalued.mp hestablished.valued (g stock) hmem (hofItem.trans hof)
      have hsum := (h.fifo_value_iff hmethod hid htenant db₁ replayed costByWarehouse _).mp hvalue
      rw [hcreated, hwarehouse, hquantity, h.onHandAt_eq, h.reservedQuantity_eq,
        hrows.onHandAt_eq hstock hof] at hsum
      linarith
    · intro hfits
      obtain ⟨hexact, hothers⟩ := hfits hmethod
      refine ⟨hvalued.mpr fun stock hstock hof => ?_, fun _ warehouseId =>
        (hcovered warehouseId).mpr (hexact warehouseId)⟩
      rw [hstocks] at hstock
      obtain ⟨row, hrow, rfl⟩ := List.mem_map.mp hstock
      obtain ⟨-, hwarehouse, hofItem, hquantity, -⟩ := hg row
      have hofRow : row.inventoryItemId = inventoryItemId := hofItem.symm.trans hof
      refine (h.fifo_value_iff hmethod hid htenant db₁ replayed costByWarehouse _).mpr ?_
      rw [hwarehouse, hquantity, hothers row hrow hofRow, add_zero, (hcovered _).mpr (hexact _),
        h.onHandAt_eq, h.reservedQuantity_eq, hrows.onHandAt_eq hrow hofRow]
  · constructor
    · intro _ hfifo
      exact absurd hfifo hmethod
    · intro _
      refine ⟨hvalued.mpr fun stock hstock hof => ?_, fun hfifo => absurd hfifo hmethod⟩
      exact h.value_ne_none hrows hrequested hmethod hid htenant db₁ replayed costByWarehouse
        hstock hof

end ConfiguredTo

/-- The orders that are complete leave no negative reservation. -/
theorem StockRowsOf.committed (h : StockRowsOf db tenantId inventoryItemId) :
    StockRowsOf (commitCompletedOrders tenantId inventoryItemId db) tenantId inventoryItemId := by
  obtain ⟨movements, hdb, hactive⟩ :=
    commitCompletedOrders_eq db tenantId inventoryItemId
  rw [hdb]
  exact ⟨h.one, h.nonneg, fun row hrow hof htype =>
    h.reserved row (hactive row hrow htype) hof htype⟩

/-- Beans that came in at a warehouse, five of them, and how many stand there now. -/
def beansAt (onHand : ℚ) : DB where
  nextId := 5
  tenants := [⟨1, .retail⟩]
  warehouses := [⟨3, 1, none, true⟩]
  items := [⟨2, 1, "beans", none, none, none, none, none⟩]
  products := []
  stocks := [⟨4, some 3, 2, onHand, none⟩]
  movements := [⟨1, 1, .stockIn, 5, some 0, some 5, 2, none, none, some 3, some 2, some 10⟩]
  layers := []
  allocations := []
  transfers := []
  transferReceipts := []
  suppliers := []
  purchaseOrders := []
  purchaseReceipts := []
  priceVariances := []
  orders := []
  outbox := []

def byFifo : ConfigureInventoryValuationDto where
  method := .fifo
  movingAverageScope := none
  standardCost := none
  openingCosts := []

theorem beansAt_rows {onHand : ℚ} (h : 0 ≤ onHand) : StockRowsOf (beansAt onHand) 1 2 := by
  refine ⟨List.nodup_singleton _, fun stock hstock _ => ?_, fun row hrow _ htype => ?_⟩
  · rw [List.mem_singleton.mp hstock]
    exact h
  · rw [List.mem_singleton.mp hrow] at htype
    cases htype

end Valued

end Inventory
end ERP
