import ERP.Lib.Text
import ERP.Storage.TenantPath

/-!
# Uploading and reading back

`StorageController.uploadSingle` checks the file, builds a storage id below the
provider folder and hands both to the provider, which puts the folder in front
of the id again.  What the client gets back is the id of the provider.
-/

namespace ERP
namespace Storage

open Lib Lib.Path

/-- The uploaded file: its name, its type, and the length of its buffer. -/
structure UploadedFile where
  originalname : String
  mimetype : String
  size : Nat

structure UploadFileDto where
  category : String
  permanent : String
  folder : Option String

structure RequestContext where
  tenantId : Option String
  outletId : Option String

/-- `String.prototype.replace(/[^...]/g, '_')` for the characters to keep.  A
character outside the basic plane is two code units, hence two underscores. -/
def replaceOthers (keep : Char → Bool) (text : List Char) : List Char :=
  text.flatMap fun c =>
    if keep c then [c] else if c.toNat ≤ 0xFFFF then ['_'] else ['_', '_']

def isWordChar (c : Char) : Bool :=
  ('a' ≤ c && c ≤ 'z') || ('A' ≤ c && c ≤ 'Z') || ('0' ≤ c && c ≤ '9') || c == '_' || c == '-'

def isFileChar (c : Char) : Bool := isWordChar c || c == '.'

def sanitizeSegment (s : Segment) : Segment := replaceOthers isFileChar s

section Validation

-- `toLowerCase` maps the whole of Unicode; nothing here depends on how
variable (toLowerCase : List Char → List Char)

/-- `text.includes('..') || text.includes('/') || text.includes('\\')`. -/
def hasTraversal (text : List Char) : Bool := ['.', '.'] <:+: text ∨ '/' ∈ text ∨ '\\' ∈ text

def sanitizeCategory (input : String) : Except StorageFailure (List Char) :=
  let category := toLowerCase (trim input).toList
  if category = [] then .error .invalidCategory
  else if hasTraversal category then .error .invalidCategory
  else .ok (replaceOthers isWordChar category)

/-- From the last dot on, nothing without one. -/
def getExtension (filename : List Char) : List Char :=
  if '.' ∈ filename then '.' :: (filename.reverse.takeWhile (· ≠ '.')).reverse else []

/-- `replace(/\.+/g, '.')`. -/
def collapseDots (text : List Char) : List Char :=
  text.foldr (fun c rest => if c = '.' ∧ rest.head? = some '.' then rest else c :: rest) []

def sanitizeFilename (filename : List Char) : List Char :=
  collapseDots (replaceOthers isFileChar (((slashes filename).splitOn '/').getLastD []))

def dangerousExtensions : List String :=
  [".exe", ".bat", ".cmd", ".sh", ".js", ".mjs", ".cjs", ".ts", ".tsx", ".php", ".pl", ".py",
    ".rb", ".jar", ".ws", ".ps1", ".vbs", ".msi"]

def allowedExtensions : List String :=
  [".png", ".jpg", ".jpeg", ".webp", ".gif", ".pdf", ".csv", ".txt"]

def allowedMimePrefixes : List String :=
  ["image/", "application/pdf", "text/", "application/vnd.ms-excel", "text/csv"]

/-- The name under which a checked file is stored. -/
def validateFileUpload (file : UploadedFile) : Except StorageFailure (List Char) :=
  let filename := file.originalname.toList
  if file.size = 0 then .error .emptyFile
  else if 10 * 1024 * 1024 < file.size then .error .fileTooLarge
  else if filename = [] then .error .filenameMissing
  else if hasTraversal filename then .error .invalidFilename
  else
    let safeFilename := sanitizeFilename filename
    if safeFilename = [] ∨ safeFilename.head? = some '.' then .error .dangerousFilename
    else
      let ext := toLowerCase (getExtension safeFilename)
      if ext ∈ dangerousExtensions.map (·.toList) then .error .executableContent
      else if ext ≠ [] ∧ ext ∉ allowedExtensions.map (·.toList) then .error .extensionNotAllowed
      else if ¬ allowedMimePrefixes.any fun p => p.toList <+: file.mimetype.toList then
        .error .mimeTypeNotAllowed
      else if safeFilename.head? = some '.' then .error .hiddenFile
      else .ok safeFilename

/-- `filename.slice(0, -ext.length)`.  Without an extension that is
`slice(0, 0)`, and the name is lost. -/
def nameWithoutExt (filename ext : List Char) : List Char :=
  if ext.length = 0 then [] else filename.take (filename.length - ext.length)

def outletPart (outletId : Option String) : List Char :=
  match outletSet outletId with
  | some o => outletSegment o ++ ['/']
  | none => []

def extraFolder (folder : Option String) : Except StorageFailure (List Char) :=
  match folder.filter (· ≠ "") with
  | some f => (· ++ ['/']) <$> sanitizeCategory toLowerCase f
  | none => .ok []

def buildStorageId (providerFolder : List Char) (tenantId : String) (outletId : Option String)
    (category originalFilename : List Char) (folder : Option String) (timestamp : Nat) :
    Except StorageFailure (List Char) := do
  let extra ← extraFolder toLowerCase folder
  let ext := getExtension originalFilename
  let safeName := replaceOthers isFileChar (nameWithoutExt originalFilename ext)
  let idFile := (toString timestamp).toList ++ '-' :: safeName ++ ext
  pure (providerFolder ++ '/' :: (tenantSegment tenantId ++ '/' ::
    (outletPart outletId ++ category ++ '/' :: (extra ++ idFile))))

end Validation

/-- Where a provider puts an upload: a file, or an object of the bucket. -/
inductive StoredKey where
  | file (path : List Segment)
  | object (key : List Char)
  deriving DecidableEq, Repr

structure StorageUploadResult where
  path : List Char
  key : StoredKey
  deriving DecidableEq, Repr

/-- The two kinds of provider.  The local one sees which paths exist already and
the time at which it asked. -/
inductive Provider where
  | localFiles (base : BaseDir) (fileExists : List Segment → Bool) (now : Nat)
  | s3Compatible

/-- `path.extname`: empty also for a dot at the start and for `..`. -/
def extname (s : Segment) : Segment :=
  let ext := getExtension s
  if ext.length = s.length ∨ s = up then [] else ext

/-- `path.relative` between absolute paths. -/
def relative : List Segment → List Segment → List Segment
  | b :: base, t :: target =>
    if b = t then relative base target else List.replicate (base.length + 1) up ++ t :: target
  | base, target => List.replicate base.length up ++ target

/-- The last segment of a path with a time stamp before its extension. -/
def withTimestamp (path : List Segment) (now : Nat) : List Segment :=
  let name := path.getLastD []
  let ext := extname name
  path.dropLast ++ [name.take (name.length - ext.length) ++ '-' :: (toString now).toList ++ ext]

def localUpload (base : BaseDir) (fileExists : List Segment → Bool) (now : Nat)
    (folder filename : List Char) : Except StorageFailure StorageUploadResult := do
  let folder' := (slashes folder).dropWhile (· == '/')
  let folderSegments :=
    (segments (if folder' = [] then "general".toList else folder')).map sanitizeSegment
  let normalized := (slashes filename).dropWhile (· == '/')
  if ['.', '.'] <:+: normalized then throw .invalidFilename
  let filenameSegments := (segments normalized).map sanitizeSegment
  let relativePath := ['/'].intercalate (folderSegments ++ filenameSegments)
  let fullPath ← resolvePath base relativePath
  let finalPath := if fileExists fullPath then withTimestamp fullPath now else fullPath
  pure
    { path := slashes (['/'].intercalate (relative base.path finalPath))
      key := .file finalPath }

/-- `[folder, filename].filter(Boolean).join('/')`, with the slashes at the ends
of the folder and at the start of the name removed. -/
def s3Key (folder filename : List Char) : List Char :=
  let stripped := ((folder.dropWhile (· == '/')).reverse.dropWhile (· == '/')).reverse
  ['/'].intercalate ([stripped, filename.dropWhile (· == '/')].filter (· ≠ []))

def Provider.upload (provider : Provider) (folder filename : List Char) :
    Except StorageFailure StorageUploadResult :=
  match provider with
  | .localFiles base fileExists now => localUpload base fileExists now folder filename
  | .s3Compatible =>
    let key := s3Key folder filename
    .ok { path := key, key := .object key }

/-- What a download reads. -/
def Provider.download (provider : Provider) (id : List Char) : Except StorageFailure StoredKey :=
  match provider with
  | .localFiles base _ _ => StoredKey.file <$> resolvePath base id
  | .s3Compatible => .ok (.object id)

def getProviderFolder (permanent : Bool) : Segment :=
  if permanent then permanentFolder else tempFolder

/-- `uploadSingle`; the `id` returned to the client is the path of the result. -/
def uploadSingle (toLowerCase : List Char → List Char) (provider : Provider)
    (context : RequestContext) (file : Option UploadedFile) (dto : UploadFileDto)
    (timestamp : Nat) : Except StorageFailure StorageUploadResult := do
  let some file := file | throw .fileRequired
  if dto.permanent ∉ ["true", "false", "1", "0"] then throw .invalidUploadDto
  let some tenantId := context.tenantId.filter (· ≠ "") | throw .tenantContextMissing
  let safeFilename ← validateFileUpload toLowerCase file
  let category ← sanitizeCategory toLowerCase dto.category
  let providerFolder := getProviderFolder (dto.permanent = "true")
  let storageId ← buildStorageId toLowerCase providerFolder tenantId context.outletId category
    safeFilename dto.folder timestamp
  provider.upload providerFolder storageId

section RoundTrip

variable {root : Segment} {toLowerCase : List Char → List Char}

/-- The id names the provider folder twice. -/
def DoubledFolder (root : Segment) (id : List Char) : Prop :=
  ∃ w, id = root ++ '/' :: root ++ w ∧ (w = [] ∨ ∃ w', w = '/' :: w')

theorem segments_append_slash {s w : List Char} (hne : s ≠ []) (hs : '/' ∉ s) :
    segments (s ++ '/' :: w) = s :: segments w := by
  unfold segments
  rw [List.splitOn_append_cons_self_of_not_mem hs, List.filter_cons_of_pos (by simpa using hne)]

theorem segments_eq_self {s : List Char} (hne : s ≠ []) (hs : '/' ∉ s) : segments s = [s] := by
  unfold segments
  rw [List.splitOn_eq_singleton hs, List.filter_cons_of_pos (by simpa using hne)]
  rfl

theorem root_slash_free (h : root = permanentFolder ∨ root = tempFolder) :
    root ≠ [] ∧ '/' ∉ root ∧ '\\' ∉ root ∧ sanitizeSegment root = root := by
  rcases h with rfl | rfl <;> decide

theorem root_ne_tenantSegment (h : root = permanentFolder ∨ root = tempFolder) (t : String) :
    root ≠ tenantSegment t := by
  rcases h with rfl | rfl <;> simp [permanentFolder, tempFolder, tenantSegment]

/-- An id that names the provider folder twice has it where the tenant should be. -/
theorem verifyTenantPath_doubled (h : root = permanentFolder ∨ root = tempFolder)
    {id : List Char} (hid : DoubledFolder root id) (t : String) (o : Option String) :
    verifyTenantPath (String.ofList id) t o = .error .invalidStorageId := by
  obtain ⟨hne, hslash, _, _⟩ := root_slash_free h
  obtain ⟨w, rfl, hw⟩ := hid
  have hsegs : ∃ rest, segments (root ++ '/' :: root ++ w) = root :: root :: rest := by
    rw [List.append_assoc, List.cons_append, segments_append_slash hne hslash]
    rcases hw with rfl | ⟨w', rfl⟩
    · exact ⟨[], by rw [List.append_nil, segments_eq_self hne hslash]⟩
    · exact ⟨segments w', by rw [segments_append_slash hne hslash]⟩
  obtain ⟨rest, hrest⟩ := hsegs
  unfold verifyTenantPath
  rw [String.toList_ofList, hrest]
  split
  · rfl
  · cases rest with
    | nil => rfl
    | cons third rest =>
        dsimp only
        split
        · rfl
        · rw [if_pos (root_ne_tenantSegment h t)]

theorem buildStorageId_ok {tenantId : String} {outletId folder : Option String}
    {category filename id : List Char} {timestamp : Nat}
    (h : buildStorageId toLowerCase root tenantId outletId category filename folder timestamp =
      .ok id) : ∃ w, id = root ++ '/' :: 't' :: w := by
  unfold buildStorageId at h
  cases hextra : extraFolder toLowerCase folder with
  | error e =>
      rw [hextra] at h
      exact absurd h (by simp [bind, Except.bind])
  | ok extra =>
      rw [hextra] at h
      exact ⟨_, (Except.ok.inj h).symm⟩

theorem s3Key_doubled (h : root = permanentFolder ∨ root = tempFolder) (w : List Char) :
    s3Key root (root ++ '/' :: w) = root ++ '/' :: root ++ '/' :: w := by
  have hstrip : ((root.dropWhile (· == '/')).reverse.dropWhile (· == '/')).reverse = root := by
    rcases h with rfl | rfl <;> decide
  have hname : (root ++ '/' :: w).dropWhile (· == '/') = root ++ '/' :: w := by
    rcases h with rfl | rfl <;> rfl
  obtain ⟨hne, _⟩ := root_slash_free h
  unfold s3Key
  simp only [hstrip, hname]
  rw [List.filter_cons_of_pos (by simpa using hne), List.filter_cons_of_pos (by simp),
    List.filter_nil, List.intercalate_cons_cons, List.intercalate_singleton]
  simp

/-- The characters a name is cut down to. -/
theorem mem_replaceOthers {keep : Char → Bool} {text : List Char} {c : Char}
    (h : c ∈ replaceOthers keep text) : keep c = true ∨ c = '_' := by
  obtain ⟨x, _, hc⟩ := List.mem_flatMap.mp h
  split at hc
  · rename_i hx
    rw [List.mem_singleton] at hc
    exact .inl (hc ▸ hx)
  · split at hc
    · exact .inr (List.mem_singleton.mp hc)
    · exact .inr (by simpa using hc)

theorem sanitizeSegment_clean (s : Segment) :
    '/' ∉ sanitizeSegment s ∧ '\\' ∉ sanitizeSegment s := by
  refine ⟨fun h => ?_, fun h => ?_⟩ <;> rcases mem_replaceOthers h with hk | hk <;>
    exact absurd hk (by decide)

theorem replaceOthers_ne_nil {keep : Char → Bool} {text : List Char} (h : text ≠ []) :
    replaceOthers keep text ≠ [] := by
  obtain ⟨c, rest, rfl⟩ := List.exists_cons_of_ne_nil h
  unfold replaceOthers
  rw [List.flatMap_cons]
  split
  · exact List.cons_ne_nil _ _
  · split <;> exact List.cons_ne_nil _ _

/-- A text in which nothing was replaced is the text itself. -/
theorem replaceOthers_eq_self {keep : Char → Bool} {text : List Char}
    (h : '_' ∉ replaceOthers keep text) : replaceOthers keep text = text := by
  induction text with
  | nil => rfl
  | cons c rest ih =>
      have hsplit : replaceOthers keep (c :: rest) =
          (if keep c then [c] else if c.toNat ≤ 0xFFFF then ['_'] else ['_', '_']) ++
            replaceOthers keep rest := List.flatMap_cons
      rw [hsplit] at h ⊢
      have hrest := ih fun hmem => h (List.mem_append_right _ hmem)
      have hhead := fun hmem => h (List.mem_append_left _ hmem)
      split at hhead
      · rename_i hkeep
        rw [if_pos hkeep, hrest]
        rfl
      · split at hhead
        · exact absurd (List.mem_singleton.mpr rfl) hhead
        · exact absurd List.mem_cons_self hhead

/-- Cutting a name down does not turn it into `..`. -/
theorem sanitizeSegment_ne_up {s : Segment} (h : s ≠ up) : sanitizeSegment s ≠ up := by
  intro heq
  have hself : sanitizeSegment s = s := by
    refine replaceOthers_eq_self fun hmem => ?_
    change '_' ∈ sanitizeSegment s at hmem
    rw [heq] at hmem
    exact absurd hmem (by decide)
  exact h (hself ▸ heq)

theorem sanitizeSegment_cons (x : List Char) :
    sanitizeSegment ('t' :: x) = 't' :: sanitizeSegment x := by
  rw [sanitizeSegment, replaceOthers, List.flatMap_cons, if_pos (by decide)]
  rfl

theorem segments_ne_nil {s : Segment} {text : List Char} (h : s ∈ segments text) : s ≠ [] := by
  simpa using (List.mem_filter.mp h).2

theorem relative_append (base more : List Segment) : relative base (base ++ more) = more := by
  induction base with
  | nil => cases more <;> rfl
  | cons b base ih =>
      rw [List.cons_append, relative, if_pos rfl]
      exact ih

/-- The path of an upload below the base directory, when its segments are cut
down and none goes up. -/
theorem resolvePath_names {base : BaseDir} {names rest fullPath : List Segment}
    (hnames : ∀ s ∈ names, isName s) (hclean : Clean (names ++ rest))
    (hback : ∀ s ∈ names ++ rest, '\\' ∉ s) (hup : up ∉ rest)
    (h : resolvePath base (['/'].intercalate (names ++ rest)) = .ok fullPath) :
    ∃ more, fullPath = base.path ++ names ++ more := by
  have htarget : fullPath = walk base.path (names ++ rest) := by
    unfold resolvePath at h
    simp only [walk_text] at h
    rw [segments_intercalate hclean, flatMap_pieces_self (fun s hs => (hclean s hs).1) hback] at h
    split at h
    · exact absurd h (by simp)
    · exact (Except.ok.inj h).symm
  refine ⟨(climb rest).2, ?_⟩
  rw [htarget, walk_append, walk_names hnames, walk_eq, landing, climb_fst_eq_zero hup,
    Nat.sub_zero, List.take_length]

theorem withTimestamp_append (dir : List Segment) {s : Segment} {rest : List Segment} (now : Nat) :
    ∃ more, withTimestamp (dir ++ s :: rest) now = dir ++ more := by
  unfold withTimestamp
  rw [List.dropLast_append_of_ne_nil (List.cons_ne_nil s rest), List.append_assoc]
  exact ⟨_, rfl⟩

theorem slashes_doubled (h : root = permanentFolder ∨ root = tempFolder) (more : List Segment) :
    DoubledFolder root (slashes (['/'].intercalate (root :: root :: more))) := by
  obtain ⟨_, _, hback, _⟩ := root_slash_free h
  have hroot : slashes root = root := by
    rcases h with rfl | rfl <;> decide
  by_cases hmore : more = []
  · subst hmore
    refine ⟨[], ?_, .inl rfl⟩
    rw [List.intercalate_cons_cons, List.intercalate_singleton]
    simp only [slashes, List.map_append, List.map_cons, List.map_nil] at hroot ⊢
    rw [hroot]
    simp
  · refine ⟨'/' :: slashes (['/'].intercalate more), ?_, .inr ⟨_, rfl⟩⟩
    rw [List.intercalate_cons_cons, List.intercalate_cons_of_ne_nil hmore]
    simp only [slashes, List.map_append, List.map_cons, List.map_nil] at hroot ⊢
    rw [hroot]
    simp

/-- The segments of the folder and of a name below it, as the local provider
cuts them down. -/
theorem uploadSegments (h : root = permanentFolder ∨ root = tempFolder) (w : List Char) :
    let folder := (slashes root).dropWhile (· == '/')
    let normalized := (slashes (root ++ '/' :: 't' :: w)).dropWhile (· == '/')
    (segments (if folder = [] then "general".toList else folder)).map sanitizeSegment = [root] ∧
      ∃ x rest, segments normalized = root :: ('t' :: x) :: rest := by
  obtain ⟨hne, hslash, _, hself⟩ := root_slash_free h
  have hfolder : (slashes root).dropWhile (· == '/') = root := by
    rcases h with rfl | rfl <;> decide
  have hnormalized : (slashes (root ++ '/' :: 't' :: w)).dropWhile (· == '/') =
      root ++ '/' :: 't' :: slashes w := by
    rcases h with rfl | rfl <;> rfl
  refine ⟨?_, ?_⟩
  · rw [hfolder, if_neg hne, segments_eq_self hne hslash, List.map_singleton, hself]
  · obtain ⟨x, rest, hsegs⟩ := segments_cons (by decide : 't' ≠ '/') (slashes w)
    exact ⟨x, rest, by rw [hnormalized, segments_append_slash hne hslash, hsegs]⟩

/-- The path of an upload starts with the folder twice. -/
theorem resolvePath_upload (h : root = permanentFolder ∨ root = tempFolder) {base : BaseDir}
    {fullPath rest : List Segment} {x normalized : List Char}
    (hsegs : segments normalized = root :: ('t' :: x) :: rest)
    (hup : ¬ ['.', '.'] <:+: normalized)
    (hresolve : resolvePath base (['/'].intercalate
      ([root, root, sanitizeSegment ('t' :: x)] ++ rest.map sanitizeSegment)) = .ok fullPath) :
    ∃ more, fullPath = base.path ++ [root, root] ++ sanitizeSegment ('t' :: x) :: more := by
  obtain ⟨hne, _, _, hself⟩ := root_slash_free h
  have hrest : ∀ s ∈ rest, s ∈ segments normalized := by
    intro s hs
    rw [hsegs]
    exact List.mem_cons_of_mem _ (List.mem_cons_of_mem _ hs)
  have hall : ∀ s ∈ [root, root, sanitizeSegment ('t' :: x)] ++ rest.map sanitizeSegment,
      ∃ s', s' ≠ [] ∧ s = sanitizeSegment s' := by
    intro s hs
    simp only [List.cons_append, List.nil_append, List.mem_cons, List.mem_map] at hs
    rcases hs with rfl | rfl | rfl | ⟨s', hs', rfl⟩
    · exact ⟨s, hne, hself.symm⟩
    · exact ⟨s, hne, hself.symm⟩
    · exact ⟨_, List.cons_ne_nil 't' x, rfl⟩
    · exact ⟨s', segments_ne_nil (hrest s' hs'), rfl⟩
  have hnames : ∀ s ∈ [root, root, sanitizeSegment ('t' :: x)], isName s := by
    intro s hs
    simp only [List.mem_cons, List.not_mem_nil, or_false] at hs
    rcases hs with rfl | rfl | rfl
    · exact (isName_root h).1
    · exact (isName_root h).1
    · rw [sanitizeSegment_cons]
      exact ⟨by rintro (hs | hs) <;> simp at hs, by simp [up]⟩
  have hup' : up ∉ rest.map sanitizeSegment := by
    intro hmem
    obtain ⟨s', hs', heq⟩ := List.mem_map.mp hmem
    have hs'up : s' ≠ up := by
      intro hs'up
      have hinfix := segments_infix (hrest s' hs')
      rw [hs'up] at hinfix
      exact hup hinfix
    exact sanitizeSegment_ne_up hs'up heq
  obtain ⟨more, hmore⟩ := resolvePath_names hnames
    (fun s hs => by
      obtain ⟨s', hs', rfl⟩ := hall s hs
      exact ⟨replaceOthers_ne_nil hs', (sanitizeSegment_clean s').1⟩)
    (fun s hs => by
      obtain ⟨s', _, rfl⟩ := hall s hs
      exact (sanitizeSegment_clean s').2)
    hup' hresolve
  exact ⟨more, by rw [hmore]; simp⟩

theorem localUpload_doubled (h : root = permanentFolder ∨ root = tempFolder) {base : BaseDir}
    {fileExists : List Segment → Bool} {now : Nat} {w : List Char} {result : StorageUploadResult}
    (hok : localUpload base fileExists now root (root ++ '/' :: 't' :: w) = .ok result) :
    DoubledFolder root result.path := by
  obtain ⟨hfolder, x, rest, hsegs⟩ := uploadSegments h w
  obtain ⟨_, _, _, hself⟩ := root_slash_free h
  unfold localUpload at hok
  simp only [hfolder, hsegs, bind, Except.bind, pure, Except.pure, throw, throwThe,
    MonadExceptOf.throw, List.map_cons, hself] at hok
  split at hok
  · exact absurd hok (by simp)
  · rename_i hup
    split at hok
    · exact absurd hok (by simp)
    · rename_i fullPath hresolve
      obtain ⟨more, hfull⟩ := resolvePath_upload h hsegs hup hresolve
      have hfinal : ∃ more', (if fileExists fullPath then withTimestamp fullPath now
          else fullPath) = base.path ++ (root :: root :: more') := by
        rw [hfull, List.append_assoc]
        split
        · rw [← List.append_assoc]
          obtain ⟨more', hmore'⟩ := withTimestamp_append (base.path ++ [root, root]) now
          exact ⟨more', by rw [hmore', List.append_assoc]; rfl⟩
        · exact ⟨_, rfl⟩
      obtain ⟨more', hmore'⟩ := hfinal
      rw [hmore'] at hok
      rw [← Except.ok.inj hok]
      dsimp only
      rw [relative_append]
      exact slashes_doubled h more'

variable {provider : Provider} {context : RequestContext} {file : Option UploadedFile}
  {dto : UploadFileDto} {timestamp : Nat} {result : StorageUploadResult}

/-- An accepted upload hands the provider its folder, and an id that starts with
the folder. -/
theorem uploadSingle_ok
    (h : uploadSingle toLowerCase provider context file dto timestamp = .ok result) :
    ∃ root, (root = permanentFolder ∨ root = tempFolder) ∧
      ∃ w, provider.upload root (root ++ '/' :: 't' :: w) = .ok result := by
  have hroot : getProviderFolder (dto.permanent = "true") = permanentFolder ∨
      getProviderFolder (dto.permanent = "true") = tempFolder := by
    unfold getProviderFolder
    split
    · exact .inl rfl
    · exact .inr rfl
  unfold uploadSingle at h
  simp only [bind, Except.bind, throw, throwThe, MonadExceptOf.throw] at h
  repeat' split at h
  all_goals first
    | exact absurd h (by simp)
    | skip
  rename_i storageId hid
  obtain ⟨w, rfl⟩ := buildStorageId_ok hid
  exact ⟨_, hroot, w, h⟩

/-- No id returned by an upload passes the tenant check, so none is read back. -/
theorem upload_not_readable
    (h : uploadSingle toLowerCase provider context file dto timestamp = .ok result)
    (t : String) :
    ¬ (verifyTenantPath (String.ofList result.path) t context.outletId = .ok () ∧
      provider.download result.path = .ok result.key) := by
  obtain ⟨root, hroot, w, hupload⟩ := uploadSingle_ok h
  have hdoubled : DoubledFolder root result.path := by
    cases provider with
    | localFiles base fileExists now => exact localUpload_doubled hroot hupload
    | s3Compatible =>
        have hresult := Except.ok.inj hupload
        rw [← hresult]
        exact ⟨'/' :: 't' :: w, s3Key_doubled hroot ('t' :: w), .inr ⟨_, rfl⟩⟩
  rintro ⟨hverify, _⟩
  rw [verifyTenantPath_doubled hroot hdoubled] at hverify
  exact absurd hverify (by simp)

end RoundTrip

def asciiLower (text : List Char) : List Char := text.map Char.toLower

/-- A picture of tenant `a`, uploaded for good. -/
def uploadPicture (provider : Provider) : Except StorageFailure StorageUploadResult :=
  uploadSingle asciiLower provider { tenantId := some "a", outletId := none }
    (some { originalname := "cup.png", mimetype := "image/png", size := 1 })
    { category := "menu", permanent := "true", folder := none } 7

theorem upload_not_readable_local :
    ∃ result, uploadPicture (.localFiles srv (fun _ => false) 8) = .ok result ∧
      ¬ (verifyTenantPath (String.ofList result.path) "a" none = .ok () ∧
        (Provider.localFiles srv (fun _ => false) 8).download result.path = .ok result.key) := by
  have hok : uploadPicture (.localFiles srv (fun _ => false) 8) = .ok
      { path := "uploads/uploads/tenant-a/menu/7-cup.png".toList
        key := .file ["srv".toList, "uploads".toList, "uploads".toList, "tenant-a".toList,
          "menu".toList, "7-cup.png".toList] } := by
    decide +kernel
  exact ⟨_, hok, upload_not_readable hok "a"⟩

/-- The id of an uploaded picture is refused to the tenant that uploaded it. -/
theorem upload_roundTrip_fails :
    ¬ ∀ (toLowerCase : List Char → List Char) (provider : Provider) (context : RequestContext)
      (file : Option UploadedFile) (dto : UploadFileDto) (timestamp : Nat)
      (result : StorageUploadResult) (t : String),
      context.tenantId = some t →
      uploadSingle toLowerCase provider context file dto timestamp = .ok result →
      verifyTenantPath (String.ofList result.path) t context.outletId = .ok () ∧
        provider.download result.path = .ok result.key := by
  intro h
  have hok : uploadPicture .s3Compatible = .ok
      { path := "uploads/uploads/tenant-a/menu/7-cup.png".toList
        key := .object "uploads/uploads/tenant-a/menu/7-cup.png".toList } := by
    decide +kernel
  have hverify := (h _ _ _ _ _ _ _ "a" rfl hok).1
  revert hverify
  decide +kernel

end Storage
end ERP
