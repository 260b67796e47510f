import ERP.Events.Outbox

/-!
# Overlapping runs of the dispatcher

What holds of the rows and of the runs that have read them, as long as no run reads a
row that another run has read and not updated yet.
-/

namespace ERP
namespace Events

open Lib

variable {rt : DispatchRuntime} {s s' : Outbox} {calls : Nat → Option DispatchRun}
  {p q i : Nat} {k k' : DispatchRun} {row : OutboxRow} {rows : List OutboxRow}

/-- How the handlers of a row were called. -/
def Outbox.deliveriesOf (s : Outbox) (i : Nat) : List Delivery :=
  s.deliveries.filter fun d => d.row = i

/-- The row a run has tried to publish, and whether its handlers succeeded. -/
def DispatchRun.tried : DispatchRun → Option (OutboxRow × Bool)
  | .processed row _ => some (row, true)
  | .failed row _ _ => some (row, false)
  | _ => none

/-- The rows a run has not tried yet. -/
def DispatchRun.waiting : DispatchRun → List OutboxRow
  | .read _ => []
  | .publish rows => rows
  | .processed _ rows => rows
  | .failed _ _ rows => rows

theorem mem_unfinished :
    row ∈ k.unfinished ↔ row ∈ k.waiting ∨ ∃ ok, k.tried = some (row, ok) := by
  cases k with
  | read limit => simp [DispatchRun.unfinished, DispatchRun.waiting, DispatchRun.tried]
  | publish rows => simp [DispatchRun.unfinished, DispatchRun.waiting, DispatchRun.tried]
  | processed tried rows =>
      simp [DispatchRun.unfinished, DispatchRun.waiting, DispatchRun.tried, eq_comm, or_comm]
  | failed tried message rows =>
      simp [DispatchRun.unfinished, DispatchRun.waiting, DispatchRun.tried, eq_comm, or_comm]

/-- The stored row of one that a run has read. -/
def Fresh (rt : DispatchRuntime) (s : Outbox) (row : OutboxRow) : Prop :=
  ∃ r, s.rows.get row.id = some r ∧ r.event rt = row.event rt ∧ r.status ≠ .processed ∧
    (row.publishable rt = true → r.status = .pending)

/-- What the position of run `p` says of the rows it has read. -/
structure Stands (rt : DispatchRuntime) (s : Outbox) (p : Nat) (k : DispatchRun) : Prop where
  fresh : ∀ row ∈ k.unfinished, Fresh rt s row
  distinct : (k.unfinished.map OutboxRow.id).Nodup
  waiting : ∀ row ∈ k.waiting, s.deliveriesOf row.id = []
  tried : ∀ row ok, k.tried = some (row, ok) → (ok = true → row.publishable rt = true) ∧
    s.deliveriesOf row.id = if row.publishable rt then [⟨row.id, p, ok⟩] else []

/-- No run has read row `i` without having updated it. -/
def Unheld (calls : Nat → Option DispatchRun) (i : Nat) : Prop :=
  ∀ p k row, calls p = some k → row ∈ k.unfinished → row.id ≠ i

/-- A row that no run holds was never published, or once and then updated accordingly. -/
def Settled (rt : DispatchRuntime) (s : Outbox) (i : Nat) : Prop :=
  s.deliveriesOf i = [] ∨ ∃ p ok r, s.deliveriesOf i = [⟨i, p, ok⟩] ∧ s.rows.get i = some r ∧
    r.publishable rt = true ∧ r.status = if ok then .processed else .failed

structure Kept (rt : DispatchRuntime) (s : Outbox) (calls : Nat → Option DispatchRun) : Prop where
  stands : ∀ p k, calls p = some k → Stands rt s p k
  owner : ∀ p q k l r₁ r₂, calls p = some k → calls q = some l → r₁ ∈ k.unfinished →
    r₂ ∈ l.unfinished → r₁.id = r₂.id → r₁.publishable rt = true → p = q
  settled : ∀ i, Unheld calls i → Settled rt s i

theorem publishable_congr {r₁ r₂ : OutboxRow} (h : r₁.event rt = r₂.event rt) :
    r₁.publishable rt = r₂.publishable rt := by
  unfold OutboxRow.publishable
  rw [h]

theorem publishable_of_ok {row : OutboxRow} {event : DomainEvent × String}
    (h : row.event rt = .ok event) : row.publishable rt = true := by
  unfold OutboxRow.publishable
  rw [h]

theorem publishable_of_error {row : OutboxRow} {message : String}
    (h : row.event rt = .error message) : row.publishable rt = false := by
  unfold OutboxRow.publishable
  rw [h]

/-- Two runs that hold one row agree on whether it can be published. -/
theorem publishable_of_id {r₁ r₂ : OutboxRow} (h₁ : Fresh rt s r₁) (h₂ : Fresh rt s r₂)
    (hid : r₁.id = r₂.id) : r₁.publishable rt = r₂.publishable rt := by
  obtain ⟨x, hx, hex, -⟩ := h₁
  obtain ⟨y, hy, hey, -⟩ := h₂
  rw [hid, hy] at hx
  cases hx
  exact publishable_congr (hex.symm.trans hey)

/-- A run whose rows and their deliveries stay stands where it stood. -/
theorem Stands.congr (h : Stands rt s p k) (hfresh : ∀ row ∈ k.unfinished, Fresh rt s' row)
    (hdeliveries : ∀ row ∈ k.unfinished, s'.deliveriesOf row.id = s.deliveriesOf row.id) :
    Stands rt s' p k where
  fresh := hfresh
  distinct := h.distinct
  waiting := fun row hrow => by
    rw [hdeliveries row (mem_unfinished.mpr (.inl hrow))]
    exact h.waiting row hrow
  tried := fun row ok hrow => by
    rw [hdeliveries row (mem_unfinished.mpr (.inr ⟨ok, hrow⟩))]
    exact h.tried row ok hrow

/-! ## The statements -/

theorem deliveriesOf_deliver (s : Outbox) (d : Delivery) (i : Nat) :
    (s.deliver d).deliveriesOf i =
      s.deliveriesOf i ++ if d.row = i then [d] else [] := by
  show (s.deliveries ++ [d]).filter _ = _
  rw [List.filter_append]
  by_cases hi : d.row = i
  · simp [Outbox.deliveriesOf, hi]
  · simp [Outbox.deliveriesOf, hi]

theorem get_setStatus (s : Outbox) (j : Nat) (status : OutboxStatus) (error : Option String)
    (i : Nat) : (s.setStatus j status error).rows.get i = (s.rows.get i).map fun r =>
      if r.id = j then
        { r with status := status, error := error.orElse fun _ => r.error } else r := by
  have hget := Rows.get_updateMany s.rows (fun r => r.id = j)
    (fun r => { r with status := status, error := error.orElse fun _ => r.error }) (fun _ => rfl) i
  simp only [decide_eq_true_eq] at hget
  exact hget

theorem get_setStatus_of_ne (s : Outbox) {j : Nat} (status : OutboxStatus) (error : Option String)
    (hi : i ≠ j) : (s.setStatus j status error).rows.get i = s.rows.get i := by
  rw [get_setStatus]
  cases hget : s.rows.get i with
  | none => rfl
  | some r =>
      have hid : ¬ r.id = j := by
        rw [Rows.key_of_get hget]
        exact hi
      rw [Option.map_some, if_neg hid]

theorem get_setStatus_self (s : Outbox) {r : OutboxRow} (status : OutboxStatus)
    (error : Option String) (hget : s.rows.get i = some r) :
    ∃ r', (s.setStatus i status error).rows.get i = some r' ∧ (∀ rt, r'.event rt = r.event rt) ∧
      r'.status = status := by
  refine ⟨_, by rw [get_setStatus, hget, Option.map_some], ?_⟩
  rw [if_pos (Rows.key_of_get hget)]
  exact ⟨fun _ => rfl, rfl⟩

@[simp] theorem deliveriesOf_setStatus (s : Outbox) (j : Nat) (status : OutboxStatus)
    (error : Option String) : (s.setStatus j status error).deliveriesOf i = s.deliveriesOf i := rfl

/-- What a run reads is stored, PENDING and read once. -/
theorem pendingBatch_spec (s : Outbox) (limit : Nat) :
    (∀ row ∈ s.pendingBatch limit, s.rows.get row.id = some row ∧ row.status = .pending) ∧
      ((s.pendingBatch limit).map OutboxRow.id).Nodup := by
  have hperm := orderBy_perm OutboxRow.createdAt
    (s.rows.toList.filter fun row => decide (row.status = .pending))
  refine ⟨fun row hrow => ?_, ?_⟩
  · have hmem := List.mem_filter.mp (hperm.mem_iff.mp (List.mem_of_mem_take hrow))
    exact ⟨Rows.get_of_mem hmem.1, of_decide_eq_true hmem.2⟩
  · have hsub : ((s.pendingBatch limit).map OutboxRow.id).Sublist
        ((orderBy OutboxRow.createdAt
          (s.rows.toList.filter fun row => decide (row.status = .pending))).map OutboxRow.id) :=
      (List.take_sublist _ _).map _
    have hfilter : ((s.rows.toList.filter fun row => decide (row.status = .pending)).map
        OutboxRow.id).Nodup := s.rows.nodup.sublist (List.filter_sublist.map _)
    exact ((hperm.map OutboxRow.id).nodup_iff.mpr hfilter).sublist hsub

/-! ## One step -/

/-- No run reads a row that can be published while another run has not updated it. -/
def ReadsApart (rt : DispatchRuntime) (w : World Outbox DispatchRun) (e : DispatchEvent) : Prop :=
  ∀ p thrown limit, e = .step p thrown → w.at_ p = some (.read limit) →
    ∀ row ∈ w.store.pendingBatch limit, row.publishable rt = true → Unheld w.at_ row.id

/-- A step of run `p`, given what it does to the rows of the others. -/
theorem Kept.step (h : Kept rt s calls) (hk : calls p = some k)
    (hothers : ∀ q l, q ≠ p → calls q = some l → Stands rt s' q l)
    (hown : Stands rt s' p k')
    (hsub : ∀ row ∈ k'.unfinished, row ∈ k.unfinished ∨
      (row.publishable rt = true → Unheld calls row.id))
    (hpublishable : ∀ row ∈ k'.unfinished, ∀ q l r, q ≠ p → calls q = some l →
      r ∈ l.unfinished → row.id = r.id → row.publishable rt = r.publishable rt)
    (hsettled : ∀ i, Unheld (Function.update calls p (some k')) i → Settled rt s' i) :
    Kept rt s' (Function.update calls p (some k')) where
  stands := fun q l hl => by
    by_cases hq : q = p
    · subst hq
      rw [Function.update_self] at hl
      cases hl
      exact hown
    · rw [Function.update_of_ne hq] at hl
      exact hothers q l hq hl
  owner := fun a b l m r₁ r₂ hl hm h₁ h₂ hid hpub => by
    by_cases ha : a = p
    · by_cases hb : b = p
      · rw [ha, hb]
      · subst ha
        rw [Function.update_self] at hl
        cases hl
        rw [Function.update_of_ne hb] at hm
        rcases hsub r₁ h₁ with hold | hnew
        · exact h.owner _ _ _ _ _ _ hk hm hold h₂ hid hpub
        · exact absurd hid.symm (hnew hpub b m r₂ hm h₂)
    · rw [Function.update_of_ne ha] at hl
      by_cases hb : b = p
      · subst hb
        rw [Function.update_self] at hm
        cases hm
        have hpub₂ : r₂.publishable rt = true :=
          (hpublishable r₂ h₂ a l r₁ ha hl h₁ hid.symm).trans hpub
        rcases hsub r₂ h₂ with hold | hnew
        · exact h.owner _ _ _ _ _ _ hl hk h₁ hold hid hpub
        · exact absurd hid (hnew hpub₂ a l r₁ hl h₁)
      · rw [Function.update_of_ne hb] at hm
        exact h.owner _ _ _ _ _ _ hl hm h₁ h₂ hid hpub
  settled := hsettled

theorem Unheld.of_update (h : Unheld (Function.update calls p (some k')) i) (hk : calls p = some k)
    (hsub : ∀ row ∈ k.unfinished, row.id ≠ i) : Unheld calls i := by
  intro q l row hl hrow
  by_cases hq : q = p
  · subst hq
    rw [hk] at hl
    cases hl
    exact hsub row hrow
  · exact h q l row (by rw [Function.update_of_ne hq]; exact hl) hrow

/-- A row nobody holds that was read as PENDING was not published yet; one that cannot
be published never was. -/
theorem Kept.undelivered (h : Kept rt s calls) (hget : s.rows.get row.id = some row)
    (hpending : row.status = .pending) (hheld : row.publishable rt = true → Unheld calls row.id) :
    s.deliveriesOf row.id = [] := by
  by_cases hunheld : Unheld calls row.id
  · rcases h.settled _ hunheld with hnone | ⟨q, ok, r, -, hr, -, hstatus⟩
    · exact hnone
    · rw [hget] at hr
      cases hr
      rw [hpending] at hstatus
      cases ok with
      | true => cases hstatus
      | false => cases hstatus
  · have hnot : row.publishable rt = false := by
      rw [Bool.eq_false_iff]
      exact fun hpub => hunheld (hheld hpub)
    unfold Unheld at hunheld
    push Not at hunheld
    obtain ⟨q, l, r, hl, hr, hid⟩ := hunheld
    have hstands := h.stands q l hl
    have hrnot : r.publishable rt = false := by
      obtain ⟨x, hx, hevent, -⟩ := hstands.fresh r hr
      rw [hid, hget] at hx
      cases hx
      rw [← publishable_congr hevent]
      exact hnot
    rcases mem_unfinished.mp hr with hwaiting | ⟨ok, htried⟩
    · rw [← hid]
      exact hstands.waiting r hwaiting
    · have hdeliveries := (hstands.tried r ok htried).2
      rw [hrnot, hid] at hdeliveries
      exact hdeliveries

/-- Row `r` is none of the others a run holds. -/
theorem ne_of_distinct {r : OutboxRow} (h : ((r :: rows).map OutboxRow.id).Nodup)
    (hrow : row ∈ rows) : row.id ≠ r.id := by
  rw [List.map_cons, List.nodup_cons] at h
  intro hid
  exact h.1 (hid ▸ List.mem_map_of_mem hrow)

theorem Kept.read (h : Kept rt s calls) {limit : Nat} (hk : calls p = some (.read limit))
    (hapart : ∀ row ∈ s.pendingBatch limit, row.publishable rt = true → Unheld calls row.id) :
    Kept rt s (Function.update calls p (some (.publish (s.pendingBatch limit)))) := by
  obtain ⟨hbatch, hnodup⟩ := pendingBatch_spec s limit
  refine h.step hk (fun q l _ hl => h.stands q l hl) ⟨?_, hnodup, ?_, ?_⟩ (fun row hrow => ?_)
    (fun row hrow q l r _ hl hr hid => ?_) fun i hi => ?_
  · intro row hrow
    obtain ⟨hget, hpending⟩ := hbatch row hrow
    refine ⟨row, hget, rfl, ?_, fun _ => hpending⟩
    rw [hpending]
    exact fun h => nomatch h
  · intro row hrow
    obtain ⟨hget, hpending⟩ := hbatch row hrow
    exact h.undelivered hget hpending (hapart row hrow)
  · intro row ok htried
    cases htried
  · exact .inr (hapart row hrow)
  · obtain ⟨x, hx, hevent, -⟩ := (h.stands q l hl).fresh r hr
    rw [← hid, (hbatch row hrow).1] at hx
    cases hx
    exact publishable_congr hevent
  · refine h.settled i (hi.of_update hk fun row hrow => ?_)
    cases hrow

/-- Trying to publish: what was delivered is delivered for the first time. -/
theorem Kept.publish (h : Kept rt s calls) (hk : calls p = some (.publish (row :: rows)))
    {ok : Bool} (htried : k'.tried = some (row, ok)) (hwaiting : k'.waiting = rows)
    (hunfinished : k'.unfinished = row :: rows)
    (hcase : (row.publishable rt = false ∧ ok = false ∧ s' = s) ∨
      (row.publishable rt = true ∧ s' = s.deliver ⟨row.id, p, ok⟩)) :
    Kept rt s' (Function.update calls p (some k')) := by
  have hstands := h.stands p _ hk
  have hnone : s.deliveriesOf row.id = [] := hstands.waiting row List.mem_cons_self
  have hrows : s'.rows = s.rows := by
    obtain ⟨-, -, rfl⟩ | ⟨-, rfl⟩ := hcase
    · rfl
    · rfl
  have hfresh {r : OutboxRow} (hr : Fresh rt s r) : Fresh rt s' r := by
    unfold Fresh
    rw [hrows]
    exact hr
  have hother {i : Nat} (hi : i ≠ row.id) : s'.deliveriesOf i = s.deliveriesOf i := by
    obtain ⟨-, -, rfl⟩ | ⟨-, rfl⟩ := hcase
    · rfl
    · rw [deliveriesOf_deliver, if_neg (Ne.symm hi), List.append_nil]
  refine h.step hk (fun q l hq hl => ?_) ⟨?_, ?_, ?_, ?_⟩ (fun r hr => .inl ?_)
    (fun r hr q l x hq hl hx hid => ?_) fun i hi => ?_
  · -- a run that holds the same row sees no delivery of it
    refine (h.stands q l hl).congr (fun r hr => hfresh ((h.stands q l hl).fresh r hr))
      fun r hr => ?_
    by_cases hid : r.id = row.id
    · obtain ⟨-, -, rfl⟩ | ⟨hpub, -⟩ := hcase
      · rfl
      · exact absurd (h.owner _ _ _ _ _ _ hk hl List.mem_cons_self hr hid.symm hpub).symm hq
    · exact hother hid
  · intro r hr
    rw [hunfinished] at hr
    exact hfresh (hstands.fresh r hr)
  · rw [hunfinished]
    exact hstands.distinct
  · intro r hr
    rw [hwaiting] at hr
    rw [hother (ne_of_distinct hstands.distinct hr)]
    exact hstands.waiting r (List.mem_cons_of_mem _ hr)
  · intro r b hr
    rw [htried] at hr
    cases hr
    obtain ⟨hpub, rfl, rfl⟩ | ⟨hpub, rfl⟩ := hcase
    · rw [hpub, hnone]
      exact ⟨fun hb => (nomatch hb), rfl⟩
    · rw [hpub, deliveriesOf_deliver, hnone, if_pos rfl]
      exact ⟨fun _ => rfl, rfl⟩
  · rw [hunfinished] at hr
    exact hr
  · rw [hunfinished] at hr
    exact publishable_of_id (hstands.fresh r hr) ((h.stands q l hl).fresh x hx) hid
  · have hrow : i ≠ row.id := by
      rintro rfl
      exact hi p k' row (Function.update_self ..) (hunfinished ▸ List.mem_cons_self) rfl
    have hunheld : Unheld calls i := hi.of_update hk fun r hr => by
      exact hi p k' r (Function.update_self ..) (hunfinished ▸ hr)
    unfold Settled
    rw [hother hrow, hrows]
    exact h.settled i hunheld

/-- Updating the row that was tried. -/
theorem Kept.update (h : Kept rt s calls) (hk : calls p = some k) (ok : Bool)
    {error : Option String} (htried : k.tried = some (row, ok)) (hwaiting : k.waiting = rows)
    (hunfinished : k.unfinished = row :: rows) :
    Kept rt (s.setStatus row.id (if ok then .processed else .failed) error)
      (Function.update calls p (some (.publish rows))) := by
  have hstands := h.stands p k hk
  obtain ⟨hpublished, hdelivered⟩ := hstands.tried row ok htried
  have hdistinct : ((row :: rows).map OutboxRow.id).Nodup := hunfinished ▸ hstands.distinct
  have hmem : row ∈ k.unfinished := hunfinished ▸ List.mem_cons_self
  have hfresh {r : OutboxRow} (hr : Fresh rt s r) (hid : r.id ≠ row.id) :
      Fresh rt (s.setStatus row.id (if ok then .processed else .failed) error) r := by
    unfold Fresh
    rw [get_setStatus_of_ne s _ error hid]
    exact hr
  refine h.step hk (fun q l hq hl => ?_) ⟨fun r hr => ?_, ?_, fun r hr => ?_, fun r b hr => ?_⟩
    (fun r hr => .inl ?_) (fun r hr q l x hq hl hx hid => ?_) fun i hi => ?_
  · refine (h.stands q l hl).congr (fun r hr => ?_) fun r hr => rfl
    by_cases hid : r.id = row.id
    · -- the row is held twice, so it cannot be published and has failed
      have hrfresh := (h.stands q l hl).fresh r hr
      have hsame := publishable_of_id hrfresh (hstands.fresh row hmem) hid
      have hnot : row.publishable rt = false := by
        rw [Bool.eq_false_iff]
        exact fun hpub => hq (h.owner _ _ _ _ _ _ hk hl hmem hr hid.symm hpub).symm
      have hok : ok = false := by
        rw [Bool.eq_false_iff]
        intro hok
        rw [hpublished hok] at hnot
        cases hnot
      obtain ⟨x, hx, hevent, -, -⟩ := hrfresh
      rw [hid] at hx
      obtain ⟨y, hy, hyevent, hystatus⟩ := get_setStatus_self s
        (if ok then .processed else .failed) error hx
      refine ⟨y, hid ▸ hy, (hyevent rt).trans hevent, ?_, fun hpub => ?_⟩
      · rw [hystatus, hok]
        exact fun h => nomatch h
      · rw [hsame, hnot] at hpub
        cases hpub
    · exact hfresh ((h.stands q l hl).fresh r hr) hid
  · exact hfresh (hstands.fresh r (hunfinished ▸ List.mem_cons_of_mem _ hr))
      (ne_of_distinct hdistinct hr)
  · rw [List.map_cons, List.nodup_cons] at hdistinct
    exact hdistinct.2
  · exact hstands.waiting r (hwaiting ▸ hr)
  · cases hr
  · rw [hunfinished]
    exact List.mem_cons_of_mem _ hr
  · exact publishable_of_id (hstands.fresh r (hunfinished ▸ List.mem_cons_of_mem _ hr))
      ((h.stands q l hl).fresh x hx) hid
  · by_cases hrow : i = row.id
    · subst hrow
      obtain ⟨x, hx, hevent, -, -⟩ := hstands.fresh row hmem
      obtain ⟨y, hy, hyevent, hystatus⟩ := get_setStatus_self s
        (if ok then .processed else .failed) error hx
      unfold Settled
      rw [deliveriesOf_setStatus, hdelivered]
      by_cases hpub : row.publishable rt = true
      · rw [if_pos hpub]
        exact .inr ⟨p, ok, y, rfl, hy, (publishable_congr ((hyevent rt).trans hevent)).trans
          hpub, hystatus⟩
      · rw [if_neg hpub]
        exact .inl rfl
    · have hunheld : Unheld calls i := hi.of_update hk fun r hr => by
        rw [hunfinished] at hr
        rcases List.mem_cons.mp hr with rfl | hr
        · exact Ne.symm hrow
        · exact hi p _ r (Function.update_self ..) hr
      unfold Settled
      rw [get_setStatus_of_ne s _ error hrow]
      exact h.settled i hunheld

/-- A row that is written anew was held by nobody and not published. -/
theorem Kept.insert (h : Kept rt s calls) (row : OutboxRow) :
    Kept rt { s with rows := s.rows.insert row } calls := by
  refine ⟨fun q l hl => ?_, h.owner, fun i hi => ?_⟩
  · refine (h.stands q l hl).congr (fun r hr => ?_) fun r hr => rfl
    obtain ⟨x, hx, hrest⟩ := (h.stands q l hl).fresh r hr
    exact ⟨x, Rows.get_insert_of_get hx row, hrest⟩
  · rcases h.settled i hi with hnone | ⟨q, ok, r, hd, hr, hrest⟩
    · exact .inl hnone
    · exact .inr ⟨q, ok, r, hd, Rows.get_insert_of_get hr row, hrest⟩

/-- One event under the condition. -/
theorem Kept.exec {w : World Outbox DispatchRun} (h : Kept rt w.store w.at_) (e : DispatchEvent)
    (hok : ReadsApart rt w e) :
    Kept rt ((dispatcher rt).exec w e).store ((dispatcher rt).exec w e).at_ := by
  obtain ⟨p, limit, -, hp, hs, ha⟩ | ⟨p, thrown, k, he, -, hp, hs, ha⟩ | ⟨row, -, hs, ha⟩ |
    ⟨p, k, -, hp, hs, ha⟩ | ⟨hs, ha⟩ := (dispatcher rt).exec_cases w e
  · rw [hs, ha]
    have hnew {q : Nat} {l : DispatchRun}
        (hl : Function.update w.at_ p (some (.read limit)) q = some l) :
        (q = p ∧ l = .read limit) ∨ w.at_ q = some l := by
      by_cases hq : q = p
      · subst hq
        rw [Function.update_self] at hl
        cases hl
        exact .inl ⟨rfl, rfl⟩
      · rw [Function.update_of_ne hq] at hl
        exact .inr hl
    refine ⟨fun q l hl => ?_, fun a b l m r₁ r₂ hl hm h₁ h₂ hid hpub => ?_, fun i hi => ?_⟩
    · rcases hnew hl with ⟨-, rfl⟩ | hl
      · exact ⟨fun _ h => (nomatch h), List.nodup_nil, fun _ h => (nomatch h),
          fun _ _ h => nomatch h⟩
      · exact h.stands q l hl
    · rcases hnew hl with ⟨-, rfl⟩ | hl
      · cases h₁
      · rcases hnew hm with ⟨-, rfl⟩ | hm
        · cases h₂
        · exact h.owner _ _ _ _ _ _ hl hm h₁ h₂ hid hpub
    · refine h.settled i fun q l r hl hr => hi q l r ?_ hr
      rw [Function.update_of_ne]
      · exact hl
      · rintro rfl
        rw [hp] at hl
        cases hl
  · rw [hs, ha]
    cases k with
    | read limit => exact h.read hp fun row hrow => hok p thrown limit he hp row hrow
    | publish rows =>
        cases rows with
        | nil => exact System.stop_keeps (I := Kept rt) h hp
        | cons row rows =>
            show Kept rt (DispatchRun.next rt p thrown (.publish (row :: rows)) w.store).2
              (Function.update w.at_ p
                (some (DispatchRun.next rt p thrown (.publish (row :: rows)) w.store).1))
            simp only [DispatchRun.next]
            cases hevent : row.event rt with
            | error message =>
                have hpub := publishable_of_error hevent
                exact h.publish hp rfl rfl rfl (.inl ⟨hpub, rfl, rfl⟩)
            | ok event =>
                have hpub := publishable_of_ok hevent
                cases thrown with
                | none => exact h.publish hp rfl rfl rfl (.inr ⟨hpub, rfl⟩)
                | some message => exact h.publish hp rfl rfl rfl (.inr ⟨hpub, rfl⟩)
    | processed row rows => exact h.update hp true rfl rfl rfl
    | failed row message rows => exact h.update hp false rfl rfl rfl
  · rw [hs, ha]
    exact h.insert _
  · rw [hs, ha]
    exact System.stop_keeps (I := Kept rt) h hp
  · rw [hs, ha]
    exact h

theorem kept_start (rows : Rows OutboxRow OutboxRow.id) :
    Kept rt (World.idle (κ := DispatchRun) (Outbox.mk rows [])).store
      (World.idle (κ := DispatchRun) (Outbox.mk rows [])).at_ where
  stands := fun _ _ hk => nomatch hk
  owner := fun _ _ _ _ _ _ hk => nomatch hk
  settled := fun _ _ => .inl rfl

/-- At every point of a schedule that meets the condition. -/
theorem kept_run (rows : Rows OutboxRow OutboxRow.id) (es : List DispatchEvent)
    (hok : (dispatcher rt).Follows (ReadsApart rt) (World.idle ⟨rows, []⟩) es) :
    Kept rt ((dispatcher rt).run (World.idle ⟨rows, []⟩) es).store
      ((dispatcher rt).run (World.idle ⟨rows, []⟩) es).at_ :=
  (dispatcher rt).follows_invariant (I := fun w => Kept rt w.store w.at_)
    (fun _ e h hok => h.exec e hok) es hok (kept_start rows)

/-! ## What happens to one row -/

/-- Under the invariant a row is delivered at most once. -/
theorem Kept.delivered_once (h : Kept rt s calls) (i : Nat) : (s.deliveriesOf i).length ≤ 1 := by
  by_cases hunheld : Unheld calls i
  · rcases h.settled i hunheld with hnone | ⟨q, ok, r, hd, -⟩
    · rw [hnone]
      exact Nat.zero_le 1
    · rw [hd]
      exact le_refl 1
  · unfold Unheld at hunheld
    push Not at hunheld
    obtain ⟨q, l, r, hl, hr, rfl⟩ := hunheld
    rcases mem_unfinished.mp hr with hwaiting | ⟨ok, htried⟩
    · rw [(h.stands q l hl).waiting r hwaiting]
      exact Nat.zero_le 1
    · rw [((h.stands q l hl).tried r ok htried).2]
      split
      · exact le_refl 1
      · exact Nat.zero_le 1

/-- An event leaves a stored row alone, or a run updates a row it holds. -/
theorem exec_row (rt : DispatchRuntime) {w : World Outbox DispatchRun} (e : DispatchEvent)
    {r : OutboxRow}
    (hget : w.store.rows.get i = some r) :
    ((dispatcher rt).exec w e).store.rows.get i = some r ∨
    ∃ p k row ok error, w.at_ p = some k ∧ k.tried = some (row, ok) ∧ row.id = i ∧
      ((dispatcher rt).exec w e).store =
        w.store.setStatus row.id (if ok then .processed else .failed) error := by
  obtain ⟨p, limit, -, hp, hs, ha⟩ | ⟨p, thrown, k, -, -, hp, hs, ha⟩ | ⟨row, -, hs, ha⟩ |
    ⟨p, k, -, hp, hs, ha⟩ | ⟨hs, ha⟩ := (dispatcher rt).exec_cases w e
  · rw [hs]
    exact .inl hget
  · rw [hs]
    cases k with
    | read limit => exact .inl hget
    | publish rows =>
        refine .inl ?_
        show (DispatchRun.next rt p thrown (.publish rows) w.store).2.rows.get i = some r
        cases rows with
        | nil => exact hget
        | cons row rows =>
            simp only [DispatchRun.next]
            split
            · exact hget
            · cases thrown with
              | none => exact hget
              | some message => exact hget
    | processed row rows =>
        by_cases hrow : row.id = i
        · exact .inr ⟨p, _, row, true, none, hp, rfl, hrow, rfl⟩
        · exact .inl ((get_setStatus_of_ne _ _ _ (Ne.symm hrow)).trans hget)
    | failed row message rows =>
        by_cases hrow : row.id = i
        · exact .inr ⟨p, _, row, false, some message, hp, rfl, hrow, rfl⟩
        · exact .inl ((get_setStatus_of_ne _ _ _ (Ne.symm hrow)).trans hget)
  · rw [hs]
    exact .inl (Rows.get_insert_of_get hget _)
  · rw [hs]
    exact .inl hget
  · rw [hs]
    exact .inl hget

/-- A row that is PROCESSED stays so: the runs that hold a row found it unprocessed. -/
theorem Kept.stays_processed {w : World Outbox DispatchRun} (h : Kept rt w.store w.at_)
    (e : DispatchEvent) (hget : (w.store.rows.get i).map OutboxRow.status = some .processed) :
    (((dispatcher rt).exec w e).store.rows.get i).map OutboxRow.status = some .processed := by
  obtain ⟨r, hr, hstatus⟩ := Option.map_eq_some_iff.mp hget
  rcases exec_row rt e hr with hsame | ⟨p, k, row, ok, error, hk, htried, hid, -⟩
  · rw [hsame]
    exact congrArg some hstatus
  · obtain ⟨x, hx, -, hunprocessed, -⟩ :=
      (h.stands p k hk).fresh row (mem_unfinished.mpr (.inr ⟨ok, htried⟩))
    rw [hid, hr] at hx
    cases hx
    exact absurd hstatus hunprocessed

/-- Row `i` was read: a run holds it, or it has been updated since. -/
def Begun (s : Outbox) (calls : Nat → Option DispatchRun) (i : Nat) : Prop :=
  (∃ p k row, calls p = some k ∧ row ∈ k.unfinished ∧ row.id = i) ∨
    ∃ r, s.rows.get i = some r ∧ (r.status = .failed ∨ r.status = .processed ∧
      s.deliveriesOf i ≠ [])

theorem deliveriesOf_exec {w : World Outbox DispatchRun} (e : DispatchEvent)
    (h : w.store.deliveriesOf i ≠ []) : ((dispatcher rt).exec w e).store.deliveriesOf i ≠ [] := by
  obtain ⟨p, limit, -, hp, hs, ha⟩ | ⟨p, thrown, k, -, -, hp, hs, ha⟩ | ⟨row, -, hs, ha⟩ |
    ⟨p, k, -, hp, hs, ha⟩ | ⟨hs, ha⟩ := (dispatcher rt).exec_cases w e
  · rw [hs]
    exact h
  · rw [hs]
    show (DispatchRun.next rt p thrown k w.store).2.deliveriesOf i ≠ []
    have hdeliver (d : Delivery) : (w.store.deliver d).deliveriesOf i ≠ [] := by
      rw [deliveriesOf_deliver]
      exact fun hnil => h (List.append_eq_nil_iff.mp hnil).1
    cases k with
    | read limit => exact h
    | processed row rows => exact h
    | failed row message rows => exact h
    | publish rows =>
        cases rows with
        | nil => exact h
        | cons row rows =>
            simp only [DispatchRun.next]
            split
            · exact h
            · cases thrown with
              | none => exact hdeliver _
              | some message => exact hdeliver _
  · rw [hs]
    exact h
  · rw [hs]
    exact h
  · rw [hs]
    exact h

/-- A run lets go of a row only by updating it. -/
theorem exec_holds (rt : DispatchRuntime) {w : World Outbox DispatchRun} (e : DispatchEvent)
    {k : DispatchRun}
    (hk : w.at_ p = some k) (hrow : row ∈ k.unfinished) :
    (∃ l, ((dispatcher rt).exec w e).at_ p = some l ∧ row ∈ l.unfinished) ∨
    ∃ ok error, k.tried = some (row, ok) ∧ ((dispatcher rt).exec w e).store =
      w.store.setStatus row.id (if ok then .processed else .failed) error := by
  obtain ⟨q, limit, -, hq, hs, ha⟩ | ⟨q, thrown, l, -, -, hq, hs, ha⟩ | ⟨new, -, hs, ha⟩ |
    ⟨q, l, -, hq, hs, ha⟩ | ⟨hs, ha⟩ := (dispatcher rt).exec_cases w e
  · refine .inl ⟨k, ?_, hrow⟩
    rw [ha, Function.update_of_ne]
    · exact hk
    · rintro rfl
      rw [hk] at hq
      cases hq
  · by_cases hpq : p = q
    · subst hpq
      rw [hk] at hq
      cases hq
      rw [ha, hs, Function.update_self]
      show (∃ l, some (DispatchRun.next rt p thrown k w.store).1 = some l ∧ row ∈ l.unfinished) ∨
        ∃ ok error, k.tried = some (row, ok) ∧ (DispatchRun.next rt p thrown k w.store).2 = _
      cases k with
      | read limit => cases hrow
      | processed tried rows =>
          rcases List.mem_cons.mp hrow with rfl | hrow
          · exact .inr ⟨true, none, rfl, rfl⟩
          · exact .inl ⟨_, rfl, hrow⟩
      | failed tried message rows =>
          rcases List.mem_cons.mp hrow with rfl | hrow
          · exact .inr ⟨false, some message, rfl, rfl⟩
          · exact .inl ⟨_, rfl, hrow⟩
      | publish rows =>
          cases rows with
          | nil => cases hrow
          | cons first rows =>
              refine .inl ⟨_, rfl, ?_⟩
              simp only [DispatchRun.next]
              split
              · exact hrow
              · cases thrown with
                | none => exact hrow
                | some message => exact hrow
    · refine .inl ⟨k, ?_, hrow⟩
      rw [ha, Function.update_of_ne hpq]
      exact hk
  · exact .inl ⟨k, by rw [ha]; exact hk, hrow⟩
  · refine .inl ⟨k, ?_, hrow⟩
    by_cases hpq : p = q
    · subst hpq
      rw [hk] at hq
      cases hq
      rw [ha, Function.update_self]
      rfl
    · rw [ha, Function.update_of_ne hpq]
      exact hk
  · exact .inl ⟨k, by rw [ha]; exact hk, hrow⟩

theorem Kept.begun {w : World Outbox DispatchRun} (h : Kept rt w.store w.at_) (e : DispatchEvent)
    (hbegun : Begun w.store w.at_ i) :
    Begun ((dispatcher rt).exec w e).store ((dispatcher rt).exec w e).at_ i := by
  have hupdated {p : Nat} {k : DispatchRun} {row : OutboxRow} {ok : Bool} {error : Option String}
      (hk : w.at_ p = some k) (htried : k.tried = some (row, ok)) (hid : row.id = i)
      (hs : ((dispatcher rt).exec w e).store =
        w.store.setStatus row.id (if ok then .processed else .failed) error) :
      Begun ((dispatcher rt).exec w e).store ((dispatcher rt).exec w e).at_ i := by
    have hstands := h.stands p k hk
    obtain ⟨x, hx, -⟩ := hstands.fresh row (mem_unfinished.mpr (.inr ⟨ok, htried⟩))
    obtain ⟨y, hy, -, hystatus⟩ := get_setStatus_self w.store
      (if ok then .processed else .failed) error hx
    obtain ⟨hpublished, hdelivered⟩ := hstands.tried row ok htried
    subst hid
    refine .inr ⟨y, by rw [hs]; exact hy, ?_⟩
    cases ok with
    | false => exact .inl hystatus
    | true =>
        rw [hs, deliveriesOf_setStatus, hdelivered, if_pos (hpublished rfl)]
        exact .inr ⟨hystatus, List.cons_ne_nil _ _⟩
  rcases hbegun with ⟨p, k, row, hk, hrow, hid⟩ | ⟨r, hget, hr⟩
  · rcases exec_holds rt e hk hrow with ⟨l, hl, hrow'⟩ | ⟨ok, error, htried, hs⟩
    · exact .inl ⟨p, l, row, hl, hrow', hid⟩
    · exact hupdated hk htried hid hs
  · rcases exec_row rt e hget with hsame | ⟨p, k, row, ok, error, hk, htried, hid, hs⟩
    · refine .inr ⟨r, hsame, ?_⟩
      rcases hr with hfailed | ⟨hprocessed, hne⟩
      · exact .inl hfailed
      · exact .inr ⟨hprocessed, deliveriesOf_exec e hne⟩
    · exact hupdated hk htried hid hs

/-- What is claimed of the run `es`. -/
structure RunsApart (rt : DispatchRuntime) (rows : Rows OutboxRow OutboxRow.id)
    (es : List DispatchEvent) : Prop where
  /-- Two calls of the handlers of one row are one call. -/
  once : ∀ i, (((dispatcher rt).run (World.idle ⟨rows, []⟩) es).store.deliveriesOf i).length ≤ 1
  /-- A row that was PROCESSED at some point still is. -/
  processed : ∀ i before after, es = before ++ after →
    (((dispatcher rt).run (World.idle ⟨rows, []⟩) before).store.rows.get i).map OutboxRow.status =
      some .processed →
    (((dispatcher rt).run (World.idle ⟨rows, []⟩) es).store.rows.get i).map OutboxRow.status =
      some .processed
  /-- A row that a run has read, and none holds any more, is PROCESSED or FAILED by what
  its handlers did. -/
  outcome : ∀ before after p k row, es = before ++ after →
    ((dispatcher rt).run (World.idle ⟨rows, []⟩) before).at_ p = some k → row ∈ k.unfinished →
    Unheld ((dispatcher rt).run (World.idle ⟨rows, []⟩) es).at_ row.id →
    ∃ r, ((dispatcher rt).run (World.idle ⟨rows, []⟩) es).store.rows.get row.id = some r ∧
      r.status ≠ .pending ∧ (r.status = .processed ↔
        ∃ d ∈ ((dispatcher rt).run (World.idle ⟨rows, []⟩) es).store.deliveriesOf row.id,
          d.succeeded = true)

/-- Runs that read no row another run still holds handle every event once, and leave
every row with the outcome of its handlers. -/
theorem outbox_runs_apart (rt : DispatchRuntime) (rows : Rows OutboxRow OutboxRow.id)
    (es : List DispatchEvent)
    (hok : (dispatcher rt).Follows (ReadsApart rt) (World.idle ⟨rows, []⟩) es) :
    RunsApart rt rows es := by
  have hkept := kept_run rows es hok
  refine ⟨hkept.delivered_once, fun i before after hes hstatus => ?_,
    fun before after p k row hes hk hrow hunheld => ?_⟩
  · subst hes
    rw [System.run_append]
    refine ((dispatcher rt).follows_invariant
      (I := fun w => Kept rt w.store w.at_ ∧
        (w.store.rows.get i).map OutboxRow.status = some .processed)
      (fun w e h (hok : ReadsApart rt w e) => ⟨h.1.exec e hok, h.1.stays_processed e h.2⟩) after
      ((dispatcher rt).follows_append after before hok) ⟨?_, hstatus⟩).2
    exact kept_run rows before ((dispatcher rt).follows_initial after before hok)
  · subst hes
    have hbegun : Begun ((dispatcher rt).run (World.idle ⟨rows, []⟩) (before ++ after)).store
        ((dispatcher rt).run (World.idle ⟨rows, []⟩) (before ++ after)).at_ row.id := by
      rw [System.run_append]
      refine ((dispatcher rt).follows_invariant
        (I := fun w => Kept rt w.store w.at_ ∧ Begun w.store w.at_ row.id)
        (fun w e h (hok : ReadsApart rt w e) => ⟨h.1.exec e hok, h.1.begun e h.2⟩) after
        ((dispatcher rt).follows_append after before hok) ⟨?_, ?_⟩).2
      · exact kept_run rows before ((dispatcher rt).follows_initial after before hok)
      · exact .inl ⟨p, k, row, hk, hrow, rfl⟩
    rcases hbegun with ⟨q, l, r, hl, hr, hid⟩ | ⟨r, hget, hr⟩
    · exact absurd hid (hunheld q l r hl hr)
    · refine ⟨r, hget, ?_, ?_⟩
      · rcases hr with hfailed | ⟨hprocessed, -⟩
        · rw [hfailed]
          exact fun h => nomatch h
        · rw [hprocessed]
          exact fun h => nomatch h
      · rcases hkept.settled row.id hunheld with hnone | ⟨q, ok, x, hd, hx, -, hstatus⟩
        · rw [hnone]
          rcases hr with hfailed | ⟨-, hne⟩
          · rw [hfailed]
            simp
          · exact absurd hnone hne
        · rw [hget] at hx
          cases hx
          rw [hd, hstatus]
          cases ok with
          | true => simp
          | false => simp

/-- A runtime for rows that hold neither JSON texts nor dates. -/
def noTexts : DispatchRuntime := ⟨fun _ => .error "", fun _ => none⟩

/-- One PENDING row of an event that can be published. -/
def oneEvent : Rows OutboxRow OutboxRow.id where
  toList := [⟨0, some "tenant-a", 0, .obj [("type", .str "order.created"), ("payload", .obj [])],
    .pending, none⟩]
  nodup := List.nodup_cons.mpr ⟨List.not_mem_nil, List.nodup_nil⟩

/-- A run that reads the row, publishes it and updates it. -/
theorem outbox_runs_apart_example :
    RunsApart noTexts oneEvent [.spawn 0 50, .step 0 none, .step 0 none, .step 0 none] := by
  refine outbox_runs_apart noTexts oneEvent _ ⟨?_, ?_, ?_, ?_, trivial⟩
  · intro p thrown limit he
    cases he
  · intro p thrown limit he hp row hrow hpub q k r hk hr
    cases he
    by_cases hq : q = 0
    · subst hq
      cases hk
      cases hr
    · have hnone : ((dispatcher noTexts).exec (World.idle ⟨oneEvent, []⟩) (.spawn 0 50)).at_ q =
          none := by
        have htasks : ((dispatcher noTexts).exec (World.idle ⟨oneEvent, []⟩)
            (.spawn 0 50)).tasks q = none := Function.update_of_ne hq _ _
        unfold World.at_
        rw [htasks]
        rfl
      rw [hnone] at hk
      cases hk
  · intro p thrown limit he hp
    cases he
    cases hp
  · intro p thrown limit he hp
    cases he
    cases hp

/-- Two runs read the row before one of them updates it. -/
def overlappingRuns : List DispatchEvent :=
  [.spawn 0 50, .spawn 1 50, .step 0 none, .step 1 none, .step 0 none, .step 0 none,
    .step 1 (some "broker unavailable"), .step 1 none]

/-- Both publish the event, and the failure of the second overwrites PROCESSED. -/
theorem overlapping_runs_publish_twice : ¬ RunsApart noTexts oneEvent overlappingRuns := by
  intro h
  have htwice : (((dispatcher noTexts).run (World.idle ⟨oneEvent, []⟩)
      overlappingRuns).store.deliveriesOf 0).length = 2 := by decide +kernel
  have honce := h.once 0
  rw [htwice] at honce
  exact absurd honce (by decide)

end Events
end ERP
