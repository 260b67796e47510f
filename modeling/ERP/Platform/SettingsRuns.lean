import ERP.Platform.Settings

/-!
# Runs of setting updates

The versions of a setting count the updates that were accepted: each of them made the version
after the one it expected, no two made the same, and the audit log has one entry for each, in
their order.
-/

namespace ERP
namespace Platform
namespace PlatformSettingsService

open Lib

abbrev SettingWorld := World SettingStore (GuardedCall SettingAudit UpdateSetting SettingPlan)

/-- Call `p` was accepted. -/
def Accepted (w : SettingWorld) (p : Nat) (r : UpdateSetting) (c : SettingPlan) : Prop :=
  w.at_ p = some (.done r c)

/-- The steps from one version to the next that the audit log tells of a setting. -/
def versionsOf (key : String) (log : List SettingAudit) : List (Nat × Nat) :=
  (log.filter fun entry => entry.resourceId = key).map fun entry =>
    (entry.metadata.previousVersion, entry.metadata.newVersion)

/-- What a plan has that was made from any row. -/
def Planned (rt : Intl) (r : UpdateSetting) (c : SettingPlan) : Prop :=
  c.key.name = r.key ∧ c.normalizedValue = trim r.value ∧
    validateValue rt c.key c.normalizedValue = .ok () ∧ c.currentVersion = r.expectedVersion

theorem planned_of_plan {rt : Intl} {r : UpdateSetting} {x : Unit} {row : Option PlatformSetting}
    {c : SettingPlan} (h : (update rt).plan r x row = some c) : Planned rt r c := by
  have hprepare : prepare rt r row = .ok c := by
    change (prepare rt r row).toOption = some c at h
    cases hp : prepare rt r row with
    | error e =>
        rw [hp] at h
        cases h
    | ok c' =>
        rw [hp] at h
        cases h
        rfl
  obtain ⟨hkey, hvalue, hvalid, hversion, hcurrent⟩ := prepare_ok hprepare
  refine ⟨hkey, hvalue, hvalid, ?_⟩
  unfold SettingPlan.currentVersion
  rw [hcurrent]
  exact hversion

/-- A row under its own key with a trimmed value that passes the check of its setting. -/
def ValidRow (rt : Intl) (key : String) (row : Option PlatformSetting) : Prop :=
  ∀ v, row = some v → v.key = key ∧ trim v.value = v.value ∧
    ∃ setting, isSettingKey key = some setting ∧ validateValue rt setting v.value = .ok ()

theorem validRow_write {rt : Intl} {r : UpdateSetting} {c : SettingPlan}
    {row : Option PlatformSetting} {v : PlatformSetting} (hplan : Planned rt r c)
    (hrow : ValidRow rt r.key row) (hwrite : write c row = some v) :
    ValidRow rt r.key (some v) := by
  rintro v' hv'
  cases hv'
  obtain ⟨hkey, hvalue, hvalid, -⟩ := hplan
  obtain ⟨-, -, hv, hvkey⟩ := write_eq_some hwrite
  refine ⟨?_, ?_, c.key, ?_, ?_⟩
  · rw [hvkey]
    cases row with
    | none => exact hkey
    | some existing => exact (hrow existing rfl).1
  · rw [hv, hvalue, trim_trim]
  · rw [← hkey]
    exact isSettingKey_name c.key
  · rw [hv]
    exact hvalid

variable {rt : Intl} {history : List (Effect UpdateSetting SettingPlan)} {key : String}

/-- The audit entries of a history that are about one setting. -/
theorem versionsOf_history (h : ∀ d ∈ history, Planned rt d.request d.plan) :
    versionsOf key (history.flatMap fun d => (update rt).entries d.request d.plan) =
      ((update rt).on key history).map fun d => (d.plan.currentVersion, d.plan.nextVersion) := by
  induction history with
  | nil => rfl
  | cons d rest ih =>
      have hd : d.plan.key.name = d.request.key := (h d List.mem_cons_self).1
      have hrest := ih fun d' hd' => h d' (List.mem_cons_of_mem d hd')
      have hentries : (update rt).entries d.request d.plan = [audit d.request d.plan] := rfl
      have hresource : (audit d.request d.plan).resourceId = d.request.key := hd
      have hkey : (update rt).key d.request = d.request.key := rfl
      unfold versionsOf GuardedWrite.on at hrest ⊢
      rw [List.flatMap_cons, hentries, List.singleton_append]
      by_cases hk : d.request.key = key
      · rw [List.filter_cons_of_pos (by simpa [hresource] using hk),
          List.filter_cons_of_pos (by simpa [hkey] using hk), List.map_cons, List.map_cons, hrest]
        rfl
      · rw [List.filter_cons_of_neg (by simpa [hresource] using hk),
          List.filter_cons_of_neg (by simpa [hkey] using hk), hrest]

/-- However calls of `update` interleave and crash, the version of a setting counts those that
were accepted: each made the version after the one it expected, every version since the start
was made by exactly one of them, the row shows the value of the last, and the audit log tells of
every version once, in order. -/
theorem update_linearized (rt : Intl) (rows : List PlatformSetting) (log : List SettingAudit)
    (es : List SettingEvent) (key : String) :
    let s₀ : SettingStore := .opening PlatformSetting.key rows log
    let w := after rt rows log es
    let first := versionOf (s₀.row key)
    ∃ n, versionOf (w.store.row key) = first + n ∧
      (∀ version, (∃ p r c, Accepted w p r c ∧ r.key = key ∧ c.nextVersion = version) ↔
        first < version ∧ version ≤ first + n) ∧
      (∀ p q r r' c c', Accepted w p r c → Accepted w q r' c' → r.key = key → r'.key = key →
        c.nextVersion = c'.nextVersion → p = q) ∧
      (∀ p r c, Accepted w p r c → r.expectedVersion + 1 = c.nextVersion) ∧
      (∀ p r c, Accepted w p r c → r.key = key → c.nextVersion = first + n →
        (w.store.row key).map PlatformSetting.value = some (trim r.value)) ∧
      (n = 0 → w.store.row key = s₀.row key) ∧
      versionsOf key w.store.log.committed =
        versionsOf key log ++ (List.range' first n).map fun version => (version, version + 1) := by
  intro s₀ w first
  obtain ⟨history, h, hplans, -⟩ := (update rt).linearized (P := fun _ _ => True)
    (Q := Planned rt) (fun r x row c _ hc => planned_of_plan hc) (fun _ _ _ _ _ _ _ => trivial)
    s₀ (fun _ => trivial) (fun _ => rfl) rfl es
  have hreplays := h.row key
  obtain ⟨hversions, hlast⟩ := versions_of_replays hreplays
  have hmem {p : Nat} {r : UpdateSetting} {c : SettingPlan} (hp : Accepted w p r c)
      (hr : r.key = key) : ⟨p, r, c⟩ ∈ (update rt).on key history :=
    List.mem_filter.mpr ⟨(h.done p r c).mp hp, decide_eq_true hr⟩
  have haccepted {d : Effect UpdateSetting SettingPlan} (hd : d ∈ (update rt).on key history) :
      Accepted w d.call d.request d.plan ∧ d.request.key = key := by
    obtain ⟨hd, hr⟩ := List.mem_filter.mp hd
    exact ⟨(h.done d.call d.request d.plan).mpr hd, of_decide_eq_true hr⟩
  have hdistinct : (((update rt).on key history).map fun d => d.plan.nextVersion).Nodup := by
    rw [hversions]
    exact List.nodup_range'
  have hcurrent : (((update rt).on key history).map fun d =>
      (d.plan.currentVersion, d.plan.nextVersion)) =
      (List.range' first ((update rt).on key history).length).map fun version =>
        (version, version + 1) := by
    have hmap := congrArg (List.map fun version => (version - 1, version)) hversions
    rw [List.map_map] at hmap
    refine hmap.trans ?_
    have hshift : List.range' (first + 1) ((update rt).on key history).length =
        (List.range' first ((update rt).on key history).length).map (1 + ·) := by
      rw [List.map_add_range', Nat.add_comm 1]
    show List.map _ (List.range' (first + 1) _) = _
    rw [hshift, List.map_map]
    refine List.map_congr_left fun version _ => ?_
    show (1 + version - 1, 1 + version) = _
    rw [Nat.add_comm 1, Nat.add_sub_cancel]
  refine ⟨((update rt).on key history).length, hlast, ?_, ?_, ?_, ?_, ?_, ?_⟩
  · intro version
    have hrange : version ∈ List.range' (first + 1) ((update rt).on key history).length ↔
        first < version ∧ version ≤ first + ((update rt).on key history).length := by
      rw [List.mem_range'_1]
      omega
    rw [← hrange, ← hversions, List.mem_map]
    constructor
    · rintro ⟨p, r, c, hp, hr, hversion⟩
      exact ⟨_, hmem hp hr, hversion⟩
    · rintro ⟨d, hd, hversion⟩
      exact ⟨_, _, _, (haccepted hd).1, (haccepted hd).2, hversion⟩
  · intro p q r r' c c' hp hq hr hr' hversion
    have heq := List.inj_on_of_nodup_map hdistinct (hmem hp hr) (hmem hq hr') hversion
    exact congrArg Effect.call heq
  · intro p r c hp
    obtain ⟨-, -, -, hexpected⟩ := hplans _ ((h.done p r c).mp hp)
    exact congrArg (· + 1) hexpected.symm
  · intro p r c hp hr hversion
    obtain hnil | ⟨init, d, hconcat⟩ := List.eq_nil_or_concat' ((update rt).on key history)
    · have := hmem hp hr
      rw [hnil] at this
      cases this
    · have hd : d ∈ (update rt).on key history := by
        rw [hconcat]
        exact List.mem_append_right _ (List.mem_singleton_self d)
      rw [hconcat] at hreplays
      obtain ⟨v, hrow, hv, hvalue⟩ := row_of_replays hreplays
      have hnow : d.plan.nextVersion = versionOf (w.store.row key) := by
        show _ = versionOf (((update rt).system.run (.idle s₀) es).store.row key)
        rw [hrow]
        exact hv.symm
      have hsame : c.nextVersion = d.plan.nextVersion := by
        rw [hnow, hversion]
        exact hlast.symm
      have heq := List.inj_on_of_nodup_map hdistinct (hmem hp hr) hd hsame
      subst heq
      show (((update rt).system.run (.idle s₀) es).store.row key).map _ = _
      rw [hrow, Option.map_some, hvalue]
      exact congrArg some (hplans _ ((h.done p r c).mp hp)).2.1
  · intro hn
    rw [List.length_eq_zero_iff.mp hn] at hreplays
    exact hreplays
  · show versionsOf key ((update rt).system.run (.idle s₀) es).store.log.committed = _
    rw [h.log]
    unfold versionsOf at hcurrent ⊢
    rw [List.filter_append, List.map_append]
    refine congrArg _ ((versionsOf_history hplans).trans hcurrent)

theorem validRow_after {rows : List PlatformSetting} (log : List SettingAudit)
    (hrows : ∀ v ∈ rows, ValidRow rt v.key (some v)) (es : List SettingEvent) (key : String) :
    ValidRow rt key ((after rt rows log es).store.row key) := by
  have hstart (k : String) :
      ValidRow rt k ((GuardedStore.opening PlatformSetting.key rows log).row k) := by
    intro v hv
    have hfind : rows.find? (fun row => row.key = k) = some v := hv
    have hkey : v.key = k := by simpa using List.find?_some hfind
    subst hkey
    exact hrows v (List.mem_of_find?_eq_some hfind) v rfl
  obtain ⟨-, -, -, hkeep⟩ := (update rt).linearized (P := ValidRow rt) (Q := Planned rt)
    (fun r x row c _ hc => planned_of_plan hc)
    (fun r c row v hplan hrow hwrite => validRow_write hplan hrow hwrite)
    (.opening PlatformSetting.key rows log) hstart (fun _ => rfl) rfl es
  exact hkeep key

/-- What `list` shows of a setting passes the check of that setting and is trimmed. -/
theorem valid_of_mem_list {s : SettingStore} {item : Listed}
    (hzone : rt.timeZone "Asia/Jakarta" = true) (hrows : ∀ key, ValidRow rt key (s.row key))
    (h : item ∈ list s) :
    item.version = versionOf (s.row item.key) ∧ trim item.value = item.value ∧
      (∀ v, s.row item.key = some v → v.value = item.value) ∧
      ∃ setting, isSettingKey item.key = some setting ∧
        validateValue rt setting item.value = .ok () := by
  obtain ⟨key, -, rfl⟩ := List.mem_map.mp h
  have hkey : isSettingKey key.name = some key := isSettingKey_name key
  refine ⟨rfl, ?_, ?_, key, hkey, ?_⟩
  · cases hrow : s.row key.name with
    | none => exact trim_default key
    | some v => exact (hrows _ v hrow).2.1
  · intro v hv
    show v.value = ((s.row key.name).map PlatformSetting.value).getD _
    rw [hv]
    rfl
  · cases hrow : s.row key.name with
    | none => exact validateValue_default hzone key
    | some v =>
        obtain ⟨-, -, setting, hsetting, hvalid⟩ := hrows _ v hrow
        rw [hkey] at hsetting
        cases hsetting
        exact hvalid

/-- In every state reached, what `list` shows of a setting that no open transaction holds can be
sent back as it is: the update is accepted, makes the next version and leaves the value. -/
theorem listed_accepted (rt : Intl) (hzone : rt.timeZone "Asia/Jakarta" = true)
    (rows : List PlatformSetting) (hrows : ∀ v ∈ rows, ValidRow rt v.key (some v))
    (log : List SettingAudit) (es : List SettingEvent) (actor : String) (p : Nat) (item : Listed)
    (hitem : item ∈ list (after rt rows log es).store)
    (hp : (after rt rows log es).at_ p = none)
    (hfree : ((after rt rows log es).store.rows.cell item.key).lock = none) :
    let request : UpdateSetting := ⟨actor, item.key, item.value, item.version⟩
    let w := after rt rows log (es ++ .spawn p request :: (List.replicate 4 ()).map (.step p))
    (∃ c, Accepted w p request c ∧ c.nextVersion = item.version + 1) ∧
      w.store.row item.key = some ⟨item.key, item.value, item.version + 1⟩ := by
  intro request w
  have hvalid := validRow_after log hrows es
  obtain ⟨hversion, htrim, hvalue, setting, hsetting, hcheck⟩ :=
    valid_of_mem_list hzone hvalid hitem
  have htask : (after rt rows log es).tasks p = none := by
    cases ht : (after rt rows log es).tasks p with
    | none => rfl
    | some t =>
        change ((after rt rows log es).tasks p).map Task.state = none at hp
        rw [ht] at hp
        cases hp
  have hname : setting.name = item.key := name_of_isSettingKey hsetting
  have hplan : (update rt).plan request () ((after rt rows log es).store.row item.key) =
      some ⟨setting, item.value,
        ((after rt rows log es).store.row item.key).map PlatformSetting.version⟩ := by
    show (prepare rt request _).toOption = _
    unfold prepare
    rw [hsetting]
    dsimp only
    rw [htrim, hcheck]
    dsimp only
    rw [if_neg (not_not.mpr hversion.symm)]
    rfl
  have hwrite : (update rt).write request ⟨setting, item.value,
      ((after rt rows log es).store.row item.key).map PlatformSetting.version⟩
        ((after rt rows log es).store.row item.key) =
      some ⟨item.key, item.value, item.version + 1⟩ := by
    show write _ _ = _
    unfold write
    rw [hversion]
    cases hrow : (after rt rows log es).store.row item.key with
    | none =>
        show some (PlatformSetting.mk setting.name item.value 1) = _
        rw [hname]
        rfl
    | some v =>
        have hkey : v.key = item.key := (hvalid item.key v hrow).1
        show (if v.version = v.version then
          some (PlatformSetting.mk v.key item.value (v.version + 1)) else none) = _
        rw [if_pos rfl, hkey]
        rfl
  have hfree' : ((after rt rows log es).store.rows.cell item.key).available p = true := by
    unfold Cell.available
    rw [hfree]
  obtain ⟨hdone, hrow⟩ := (update rt).run_alone htask hplan hwrite hfree'
  have hrun : w = (update rt).system.run (after rt rows log es)
      (.spawn p request :: (List.replicate 4 ()).map (.step p)) := System.run_append _ _ _ _
  rw [hrun]
  refine ⟨⟨_, hdone, ?_⟩, hrow⟩
  show ((((after rt rows log es).store.row item.key).map PlatformSetting.version).getD 0) + 1 = _
  rw [hversion]
  rfl

/-- URLs are not looked at, and one time zone is known. -/
def jakarta : Intl := ⟨fun _ => none, fun zone => zone = "Asia/Jakarta"⟩

/-- Two updates of one currency cross: the second waits for the row, finds it there and is
refused. -/
def crossing : List SettingEvent :=
  [.spawn 0 ⟨"a", "defaultCurrency", " USD ", 0⟩, .spawn 1 ⟨"b", "defaultCurrency", "SGD", 0⟩,
    .step 0 (), .step 1 (), .step 0 (), .step 1 (), .step 0 (), .step 0 (), .step 1 ()]

theorem listed_accepted_after_crossing :
    (after jakarta [] [] crossing).at_ 1 = some .rejected ∧
      (after jakarta [] [] (crossing ++ .spawn 2 ⟨"c", "defaultCurrency", "USD", 1⟩ ::
        (List.replicate 4 ()).map (.step 2))).store.row "defaultCurrency" =
          some ⟨"defaultCurrency", "USD", 2⟩ := by
  refine ⟨by decide +kernel, ?_⟩
  exact (listed_accepted jakarta (by decide +kernel) [] (fun _ h => absurd h List.not_mem_nil) []
    crossing "c" 2 ⟨"defaultCurrency", "Default display currency", "USD", 1⟩ (by decide +kernel)
    (by decide +kernel) (by decide +kernel)).2

end PlatformSettingsService
end Platform
end ERP
