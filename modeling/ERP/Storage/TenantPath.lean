import Mathlib.Data.String.Basic
import ERP.Lib.Path

/-!
# The tenant check and the path it guards

`StorageController.verifyTenantPath` compares the first segments of a storage id
with the folders of the tenant and the outlet; `LocalStorageProvider.resolvePath`
turns the id into a path below the base directory.  The check reads the id as it
is written, the provider reads backslashes as slashes and resolves `.` and `..`.
-/

namespace ERP
namespace Storage

open Lib Lib.Path

inductive StorageFailure where
  | invalidStorageId
  | invalidPath
  | invalidFilename
  | invalidCategory
  | invalidUploadDto
  | fileRequired
  | tenantContextMissing
  | emptyFile
  | fileTooLarge
  | filenameMissing
  | dangerousFilename
  | executableContent
  | extensionNotAllowed
  | mimeTypeNotAllowed
  | hiddenFile
  deriving DecidableEq, Repr

def StorageFailure.message : StorageFailure → String
  | .invalidStorageId => "Invalid storage id"
  | .invalidPath => "Invalid path"
  | .invalidFilename => "Invalid filename"
  | .invalidCategory => "Invalid category"
  | .invalidUploadDto => "Bad Request Exception"
  | .fileRequired => "file required"
  | .tenantContextMissing => "Tenant context missing"
  | .emptyFile => "Empty file"
  | .fileTooLarge => "File too large"
  | .filenameMissing => "filename missing"
  | .dangerousFilename => "Dangerous filename"
  | .executableContent => "Executable content not allowed"
  | .extensionNotAllowed => "Extension not allowed"
  | .mimeTypeNotAllowed => "MIME type not allowed"
  | .hiddenFile => "Hidden files not allowed"

/-- `STORAGE_DEFAULT_UPLOAD_PERMANENT_FOLDER`. -/
def permanentFolder : Segment := ['u', 'p', 'l', 'o', 'a', 'd', 's']

/-- `STORAGE_DEFAULT_UPLOAD_TEMP_FOLDER`. -/
def tempFolder : Segment := ['t', 'm', 'p']

def tenantSegment (tenantId : String) : Segment :=
  ['t', 'e', 'n', 'a', 'n', 't', '-'] ++ tenantId.toList

def outletSegment (outletId : String) : Segment :=
  ['o', 'u', 't', 'l', 'e', 't', '-'] ++ outletId.toList

/-- An outlet id that is set: `null` and the empty string are not. -/
def outletSet (outletId : Option String) : Option String := outletId.filter (· ≠ "")

def verifyTenantPath (id tenantId : String) (outletId : Option String) :
    Except StorageFailure Unit :=
  if id = "" then .error .invalidStorageId
  else
    match segments id.toList with
    | root :: tenant :: third :: _ =>
      if root ≠ permanentFolder ∧ root ≠ tempFolder then .error .invalidStorageId
      else if tenant ≠ tenantSegment tenantId then .error .invalidStorageId
      else
        match outletSet outletId with
        | none => .ok ()
        | some o => if third ≠ outletSegment o then .error .invalidStorageId else .ok ()
    | _ => .error .invalidStorageId

/-- `baseDirResolved`: an absolute path as `path.resolve` leaves it. -/
structure BaseDir where
  path : List Segment
  resolved : ∀ s ∈ path, isName s ∧ '/' ∉ s

/-- `path.resolve(base, normalized)`, for a `normalized` that does not start with
a slash, and the check that it lies in the base directory. -/
def resolvePath (base : BaseDir) (inputPath : List Char) :
    Except StorageFailure (List Segment) :=
  let normalized := (slashes inputPath).dropWhile (· == '/')
  let targetPath := walk base.path (normalized.splitOn '/')
  if render targetPath ≠ render base.path ∧
      ¬ (render base.path ++ ['/']) <+: render targetPath then .error .invalidPath
  else .ok targetPath

/-- The file that `getFile` and `deleteFile` open. -/
def fileOpened (base : BaseDir) (id tenantId : String) (outletId : Option String) :
    Except StorageFailure (List Segment) := do
  verifyTenantPath id tenantId outletId
  resolvePath base id.toList

/-- The folder of a tenant, and of the outlet if one is set, below a root. -/
def tenantFolder (root : Segment) (tenantId : String) (outletId : Option String) : List Segment :=
  root :: tenantSegment tenantId :: ((outletSet outletId).map outletSegment).toList

/-- A path in the tenant's folder below one of the two roots. -/
def InTenantFolder (base : BaseDir) (tenantId : String) (outletId : Option String)
    (target : List Segment) : Prop :=
  ∃ root, (root = permanentFolder ∨ root = tempFolder) ∧
    base.path ++ tenantFolder root tenantId outletId <+: target

/-- What the provider makes of the segments behind the checked ones. -/
def piecesBehind (id tenantId : String) (outletId : Option String) : List Segment :=
  ((segments id.toList).drop (tenantFolder [] tenantId outletId).length).flatMap pieces

/-- The segments behind the checked ones climb out of no folder, or descend again
through the folders they climbed out of; either root will do.  A backslash in the
tenant or outlet id would split the checked segments themselves. -/
def StaysInside (base : BaseDir) (id tenantId : String) (outletId : Option String) : Prop :=
  '\\' ∉ tenantId.toList ∧ (∀ o ∈ outletSet outletId, '\\' ∉ o.toList) ∧
    ∃ root, (root = permanentFolder ∨ root = tempFolder) ∧
      let folder := base.path ++ tenantFolder root tenantId outletId
      let c := climb (piecesBehind id tenantId outletId)
      folder.drop (folder.length - c.1) <+: c.2

/-- The id as a whole climbs out of the base directory and does not descend into
it again.  Below the file system root nothing is accepted but the root itself. -/
def LeavesBase (base : BaseDir) (id : String) : Prop :=
  let c := climb ((segments id.toList).flatMap pieces)
  if base.path = [] then c.2 ≠ []
  else ¬ base.path.drop (base.path.length - c.1) <+: c.2

section Verify

variable {id t : String} {o : Option String}

/-- What the check accepts: the tenant's folder below one of the roots, and at
least three segments. -/
theorem verifyTenantPath_ok (h : verifyTenantPath id t o = .ok ()) :
    ∃ root rest, (root = permanentFolder ∨ root = tempFolder) ∧
      segments id.toList = tenantFolder root t o ++ rest := by
  unfold verifyTenantPath at h
  split at h
  · exact absurd h (by simp)
  · split at h
    · rename_i root tenant third rest hsegs
      split at h
      · exact absurd h (by simp)
      · rename_i hroot
        split at h
        · exact absurd h (by simp)
        · rename_i htenant
          have hroot' : root = permanentFolder ∨ root = tempFolder := by
            by_contra hne
            exact hroot (not_or.mp hne)
          have htenant' : tenant = tenantSegment t := not_not.mp htenant
          unfold tenantFolder
          split at h
          · rename_i hset
            refine ⟨root, third :: rest, hroot', ?_⟩
            rw [hsegs, hset, htenant']
            rfl
          · rename_i o' hset
            split at h
            · exact absurd h (by simp)
            · rename_i hthird
              refine ⟨root, rest, hroot', ?_⟩
              rw [hsegs, hset, htenant', not_not.mp hthird]
              rfl
    · exact absurd h (by simp)

end Verify

section Resolve

variable {base : BaseDir} {id t : String} {o : Option String} {root : Segment}

theorem BaseDir.clean (base : BaseDir) : Clean base.path := by
  intro s hs
  obtain ⟨⟨hstay, _⟩, hslash⟩ := base.resolved s hs
  exact ⟨fun hnil => hstay (.inl hnil), hslash⟩

/-- The path the provider computes, by how far the id climbs. -/
def targetOf (base : BaseDir) (id : String) : List Segment :=
  landing base.path (climb ((segments id.toList).flatMap pieces))

theorem walk_normalized (base : BaseDir) (id : String) :
    walk base.path (((slashes id.toList).dropWhile (· == '/')).splitOn '/') = targetOf base id := by
  rw [walk_text, walk_eq]
  rfl

theorem clean_targetOf (base : BaseDir) (id : String) : Clean (targetOf base id) := by
  intro s hs
  rw [← walk_normalized] at hs
  rcases mem_walk hs with hs | ⟨hs, hname⟩
  · exact base.clean s hs
  · exact ⟨fun hnil => hname.1 (.inl hnil), splitOn_free hs⟩

/-- Re-entering what was climbed out of, and more. -/
theorem append_prefix_landing_iff (dir more : List Segment) (c : Nat × List Segment) :
    dir ++ more <+: landing dir c ↔ dir.drop (dir.length - c.1) ++ more <+: c.2 := by
  have hsplit : dir ++ more =
      dir.take (dir.length - c.1) ++ (dir.drop (dir.length - c.1) ++ more) := by
    rw [← List.append_assoc, List.take_append_drop]
  rw [landing, hsplit]
  exact List.prefix_append_right_inj _

theorem prefix_landing_iff (dir : List Segment) (c : Nat × List Segment) :
    dir <+: landing dir c ↔ dir.drop (dir.length - c.1) <+: c.2 := by
  have h := append_prefix_landing_iff dir [] c
  rw [List.append_nil, List.append_nil] at h
  exact h

theorem resolvePath_ok_iff {target : List Segment} :
    resolvePath base id.toList = .ok target ↔ targetOf base id = target ∧ ¬ LeavesBase base id := by
  have hinside := render_inside_iff base.clean (clean_targetOf base id)
  have hleaves : LeavesBase base id ↔
      ¬ (if base.path = [] then targetOf base id = [] else base.path <+: targetOf base id) := by
    unfold LeavesBase
    by_cases hbase : base.path = []
    · simp [hbase, targetOf, landing]
    · simp only [hbase, if_false]
      rw [targetOf, prefix_landing_iff]
  unfold resolvePath
  simp only [walk_normalized]
  rw [hleaves, not_not, ← hinside]
  by_cases hcond : render (targetOf base id) = render base.path ∨
      render base.path ++ ['/'] <+: render (targetOf base id)
  · rw [if_neg fun hc => hcond.elim hc.1 hc.2]
    simp [hcond]
  · rw [if_pos (not_or.mp hcond)]
    simp [hcond]

theorem isName_root (h : root = permanentFolder ∨ root = tempFolder) :
    isName root ∧ root ≠ [] ∧ '\\' ∉ root := by
  rcases h with rfl | rfl <;> decide

theorem isName_of_length {s : Segment} (h : 2 < s.length) : isName s := by
  refine ⟨?_, ?_⟩
  · rintro (rfl | rfl) <;> simp at h
  · rintro rfl
    simp [up] at h

/-- A segment with one of the two labels is a name, whatever the id. -/
theorem isName_label (label text : List Char) (h : 2 < label.length) :
    isName (label ++ text) := by
  refine isName_of_length ?_
  rw [List.length_append]
  omega

theorem mem_tenantFolder {s : Segment} :
    s ∈ tenantFolder root t o ↔ s = root ∨ s = tenantSegment t ∨
      ∃ o', outletSet o = some o' ∧ s = outletSegment o' := by
  unfold tenantFolder
  rw [List.mem_cons, List.mem_cons, Option.mem_toList, Option.map_eq_some_iff]
  simp only [eq_comm]

theorem isName_tenantFolder (hroot : root = permanentFolder ∨ root = tempFolder) :
    ∀ s ∈ tenantFolder root t o, isName s := by
  intro s hs
  rcases mem_tenantFolder.mp hs with hs | hs | ⟨o', _, hs⟩
  · rw [hs]
    exact (isName_root hroot).1
  · rw [hs]
    exact isName_label _ _ (by decide)
  · rw [hs]
    exact isName_label _ _ (by decide)

/-- The folder names are free of backslashes when the ids are. -/
theorem backslash_tenantFolder (hroot : root = permanentFolder ∨ root = tempFolder) :
    (∀ s ∈ tenantFolder root t o, '\\' ∉ s) ↔
      '\\' ∉ t.toList ∧ ∀ o' ∈ outletSet o, '\\' ∉ o'.toList := by
  constructor
  · intro h
    refine ⟨fun ht => ?_, fun o' ho hmem => ?_⟩
    · exact h (tenantSegment t) (mem_tenantFolder.mpr (.inr (.inl rfl)))
        (List.mem_append_right _ ht)
    · exact h (outletSegment o') (mem_tenantFolder.mpr (.inr (.inr ⟨o', ho, rfl⟩)))
        (List.mem_append_right _ hmem)
  · rintro ⟨ht, ho⟩ s hs hmem
    rcases mem_tenantFolder.mp hs with hs | hs | ⟨o', hset, hs⟩
    · exact (isName_root hroot).2.2 (hs ▸ hmem)
    · rw [hs] at hmem
      rcases List.mem_append.mp hmem with hmem | hmem
      · exact absurd hmem (by decide)
      · exact ht hmem
    · rw [hs] at hmem
      rcases List.mem_append.mp hmem with hmem | hmem
      · exact absurd hmem (by decide)
      · exact ho o' hset hmem

theorem backslash_free_pieces {parts : List Segment} {s : Segment}
    (h : s ∈ parts.flatMap pieces) : '\\' ∉ s := by
  obtain ⟨x, _, hs⟩ := List.mem_flatMap.mp h
  exact splitOn_free (List.mem_of_mem_filter hs)

/-- Where an accepted id ends, seen from the folder that was checked. -/
theorem targetOf_eq (hroot : root = permanentFolder ∨ root = tempFolder) {rest : List Segment}
    (hsegs : segments id.toList = tenantFolder root t o ++ rest)
    (hback : ∀ s ∈ tenantFolder root t o, '\\' ∉ s) :
    targetOf base id = landing (base.path ++ tenantFolder root t o)
      (climb (piecesBehind id t o)) := by
  have hname := isName_tenantFolder (t := t) (o := o) hroot
  have hlength : (tenantFolder [] t o).length = (tenantFolder root t o).length := rfl
  have hbehind : piecesBehind id t o = rest.flatMap pieces := by
    rw [piecesBehind, hsegs, hlength, List.drop_left]
  rw [targetOf, ← walk_eq, ← walk_eq, hbehind, hsegs, List.flatMap_append,
    flatMap_pieces_self (fun s hs hnil => (hname s hs).1 (.inl hnil)) hback, walk_append,
      walk_names hname]

/-- What is climbed out of behind the root does not depend on the root. -/
theorem drop_behind_root {G : List Segment} (dir : List Segment) (root : Segment) {u : Nat}
    (hu : u ≤ G.length) :
    (dir ++ root :: G).drop ((dir ++ root :: G).length - u) = G.drop (G.length - u) := by
  have hlen : (dir ++ root :: G).length - u = dir.length + (G.length - u + 1) := by
    rw [List.length_append, List.length_cons]
    omega
  rw [hlen, List.drop_length_add_append, List.drop_succ_cons]

/-- Two roots make no difference to what lies behind them. -/
theorem comesBack_iff {G : List Segment} {root' : Segment} (dir : List Segment)
    (c : Nat × List Segment) :
    dir ++ root' :: G <+: landing (dir ++ root :: G) c ↔
      (c.1 ≤ G.length → root' = root) ∧
        (dir ++ root' :: G).drop ((dir ++ root' :: G).length - c.1) <+: c.2 := by
  obtain ⟨u, names⟩ := c
  have hlen : (dir ++ root' :: G).length = dir.length + (G.length + 1) := by simp
  have hlen' : (dir ++ root :: G).length = dir.length + (G.length + 1) := by simp
  by_cases hu : u ≤ G.length
  · -- the root is not climbed out of, so it has to be the same
    have htake : dir.length + (G.length + 1) - u = dir.length + (G.length - u + 1) := by omega
    constructor
    · intro h
      have hroot : root' = root := by
        have hsub : dir ++ [root'] <+: dir ++ [root] ++ (G.take (G.length - u) ++ names) := by
          refine List.IsPrefix.trans ?_ (h.trans ?_)
          · exact ⟨G, by simp⟩
          · rw [landing, hlen', htake, List.take_length_add_append, List.take_succ_cons]
            simp
        simpa using hsub
      subst hroot
      exact ⟨fun _ => rfl, (prefix_landing_iff _ (u, names)).mp h⟩
    · rintro ⟨hroot, h⟩
      have heq := hroot hu
      subst heq
      exact (prefix_landing_iff _ (u, names)).mpr h
  · -- the root is climbed out of, so what is left of the start is the same for both
    have htake : landing (dir ++ root :: G) (u, names) =
        landing (dir ++ root' :: G) (u, names) := by
      simp only [landing]
      rw [hlen, hlen']
      have hle : dir.length + (G.length + 1) - u ≤ dir.length := by omega
      rw [List.take_append_of_le_length hle, List.take_append_of_le_length hle]
    rw [htake, prefix_landing_iff]
    exact ⟨fun h => ⟨fun hle => absurd hle hu, h⟩, fun h => h.2⟩

/-- The id of an accepted request ends in the tenant's folder exactly when the
segments behind the checked ones stay inside it or come back to it. -/
theorem inTenantFolder_iff (h : verifyTenantPath id t o = .ok ()) :
    InTenantFolder base t o (targetOf base id) ↔ StaysInside base id t o := by
  obtain ⟨root, rest, hroot, hsegs⟩ := verifyTenantPath_ok h
  set c := climb (piecesBehind id t o) with hc
  constructor
  · rintro ⟨root', hroot', hprefix⟩
    -- the folder names are among the names descended, which hold no backslash
    have hfree : ∀ s ∈ tenantFolder root' t o, '\\' ∉ s := by
      intro s hs
      have hdesc := (append_prefix_landing_iff base.path _ _).mp hprefix
      have hmem := hdesc.subset (List.mem_append_right _ hs)
      exact backslash_free_pieces (mem_climb hmem).1
    obtain ⟨ht, ho⟩ := (backslash_tenantFolder hroot').mp hfree
    have hfree' := (backslash_tenantFolder hroot).mpr ⟨ht, ho⟩
    rw [targetOf_eq hroot hsegs hfree'] at hprefix
    exact ⟨ht, ho, root', hroot', ((comesBack_iff _ _).mp hprefix).2⟩
  · rintro ⟨ht, ho, root', hroot', hback⟩
    have hfree := (backslash_tenantFolder hroot).mpr ⟨ht, ho⟩
    rw [targetOf_eq hroot hsegs hfree]
    by_cases hu : c.1 ≤ (tenantSegment t :: ((outletSet o).map outletSegment).toList).length
    · refine ⟨root, hroot, (comesBack_iff _ _).mpr ⟨fun _ => rfl, ?_⟩⟩
      have hback' := hback
      simp only [tenantFolder, ← hc] at hback' ⊢
      rw [drop_behind_root _ _ hu] at hback' ⊢
      exact hback'
    · exact ⟨root', hroot', (comesBack_iff _ _).mpr ⟨fun hle => absurd hle hu, hback⟩⟩

/-- The check and the provider agree on whose file an id names exactly for the ids
that stay inside the checked folder, come back to it, or leave the base directory
for good. -/
theorem tenant_path_isolated_iff (base : BaseDir) (id t : String) (o : Option String) :
    (verifyTenantPath id t o = .ok () →
      ∀ target, resolvePath base id.toList = .ok target → InTenantFolder base t o target) ↔
    (verifyTenantPath id t o = .ok () → StaysInside base id t o ∨ LeavesBase base id) := by
  refine imp_congr_right fun h => ?_
  constructor
  · intro hall
    by_cases hleaves : LeavesBase base id
    · exact .inr hleaves
    · have htarget := hall (targetOf base id) (resolvePath_ok_iff.mpr ⟨rfl, hleaves⟩)
      exact .inl ((inTenantFolder_iff h).mp htarget)
  · intro hcond target hok
    obtain ⟨htarget, hin⟩ := resolvePath_ok_iff.mp hok
    rcases hcond with hstays | hleaves
    · exact htarget ▸ (inTenantFolder_iff h).mpr hstays
    · exact absurd hleaves hin

/-- A directory for the uploads of the tests below. -/
def srv : BaseDir where
  path := ["srv".toList]
  resolved := by decide +kernel

/-- Tenant `a` names a file of tenant `b` by climbing out of its own folder. -/
theorem tenant_path_escapes :
    ¬ ∀ (base : BaseDir) (id t : String) (o : Option String),
      verifyTenantPath id t o = .ok () →
        ∀ target, resolvePath base id.toList = .ok target → InTenantFolder base t o target := by
  intro h
  have hin := h srv "uploads/tenant-a/../tenant-b/f" "a" none (by decide +kernel)
    ["srv".toList, "uploads".toList, "tenant-b".toList, "f".toList] (by decide +kernel)
  obtain ⟨root, hroot | hroot, hprefix⟩ := hin
  · subst hroot
    revert hprefix
    decide +kernel
  · subst hroot
    revert hprefix
    decide +kernel

/-- Without a `..` behind the checked segments a request opens a file of its own
tenant and outlet. -/
theorem fileOpened_inTenantFolder {target : List Segment}
    (h : fileOpened base id t o = .ok target) (hup : up ∉ piecesBehind id t o)
    (ht : '\\' ∉ t.toList) (ho : ∀ o' ∈ outletSet o, '\\' ∉ o'.toList) :
    InTenantFolder base t o target := by
  unfold fileOpened at h
  cases hverify : verifyTenantPath id t o with
  | error e =>
      rw [hverify] at h
      exact absurd h (by simp [bind, Except.bind])
  | ok u =>
      rw [hverify] at h
      obtain ⟨rfl, _⟩ := resolvePath_ok_iff.mp h
      refine (inTenantFolder_iff hverify).mpr ⟨ht, ho, permanentFolder, .inl rfl, ?_⟩
      have hzero := climb_fst_eq_zero hup
      simp only [hzero, Nat.sub_zero, List.drop_length]
      exact List.nil_prefix

end Resolve

end Storage
end ERP
