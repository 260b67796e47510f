import ERP.Lib.Csv
import ERP.Lib.Keyset
import ERP.Lib.Text
import ERP.Schema

/-!
# The export of invoices

`createInvoiceCsvStream` over `findInvoiceExportPage`: the invoices that a filter
selects, page by page behind the last one, as CSV with every cell in quotes.  A cell
of text that a spreadsheet could take for a formula gets an apostrophe in front.

Invoice ids are compared by the database alone, in the order of its collation, so
their type is any linear order.
-/

namespace ERP
namespace Billing

open Lib

variable {ι : Type}

/-! ## Cells and rows -/

structure InvoiceExportRow (ι : Type) where
  id : ι
  invoiceNumber : String
  status : String
  amountCents : Int
  currency : String
  dueAt : Option Int
  paidAt : Option Int
  createdAt : Int
  tenantName : Option String
  deriving DecidableEq, Repr

/-- `string | number | null`. -/
inductive CsvValue where
  | text (value : String)
  | number (value : Int)
  | null
  deriving DecidableEq, Repr

/-- `/^[\s]*[=+\-@\t\r]/`: the white space before the character of the second class may
stop anywhere, so the pattern is tried at every position of the leading white space. -/
def formulaPattern : List Char → Bool
  | [] => false
  | c :: rest => c ∈ ['=', '+', '-', '@', '\t', '\r'] || (isSpace c && formulaPattern rest)

/-- What stands between the quotes, before the quotes in it are doubled. -/
def CsvValue.shown : CsvValue → String
  | .text value => if formulaPattern value.toList then "'" ++ value else value
  | .number value => toString value
  | .null => ""

def csvCell (value : CsvValue) : String := Csv.quoted value.shown

/-- The cells of an invoice; the name of the tenant is spliced in behind the number. -/
def invoiceCells (includeTenant : Bool) (invoice : InvoiceExportRow ι) : List CsvValue :=
  .text invoice.invoiceNumber ::
    ((if includeTenant then [.text (invoice.tenantName.getD "")] else []) ++
      [.text invoice.status,
        .number invoice.amountCents,
        .text invoice.currency,
        (invoice.dueAt.map fun time => .text (toISOString time)).getD .null,
        (invoice.paidAt.map fun time => .text (toISOString time)).getD .null,
        .text (toISOString invoice.createdAt)])

def invoiceCsvRow (includeTenant : Bool) (invoice : InvoiceExportRow ι) : String :=
  ",".intercalate ((invoiceCells includeTenant invoice).map csvCell) ++ "\r\n"

def headers (includeTenant : Bool) : List String :=
  "Invoice number" :: ((if includeTenant then ["Tenant"] else []) ++
    ["Status", "Amount (minor units)", "Currency", "Due at", "Paid at", "Created at"])

def headerRow (includeTenant : Bool) : String :=
  ",".intercalate ((headers includeTenant).map fun header => csvCell (.text header)) ++ "\r\n"

/-! ## Pages -/

structure InvoiceExportCursor (ι : Type) where
  id : ι
  createdAt : Int
  deriving DecidableEq, Repr

/-- The stream, for so many pages: the header and the rows of the invoices.  `none` when
the loop is not done by then. -/
def createInvoiceCsvStream
    (fetchPage : Option (InvoiceExportCursor ι) → Nat → List (InvoiceExportRow ι))
    (includeTenant : Bool) (fuel : Nat) : Option (List String) :=
  let pageSize := 500
  (readPages pageSize fuel none).map (headerRow includeTenant :: ·)
where
  readPages (pageSize : Nat) : Nat → Option (InvoiceExportCursor ι) → Option (List String)
    | 0, _ => none
    | fuel + 1, cursor =>
        let page := fetchPage cursor pageSize
        let chunks := page.map (invoiceCsvRow includeTenant)
        if page.length < pageSize then some chunks
        else
          match page.getLast? with
          | none => some chunks
          | some last =>
              (readPages pageSize fuel (some ⟨last.id, last.createdAt⟩)).map (chunks ++ ·)

structure InvoiceRecord (ι : Type) where
  id : ι
  tenantId : Id
  invoiceNumber : String
  status : String
  amountCents : Int
  currency : String
  dueAt : Option Int
  paidAt : Option Int
  createdAt : Int
  deletedAt : Option Int
  deriving DecidableEq, Repr

/-- The invoices, whose ids are distinct, and the names of the tenants. -/
structure InvoiceTable (ι : Type) where
  invoices : List (InvoiceRecord ι)
  nodup : (invoices.map InvoiceRecord.id).Nodup
  tenantName : Id → String

/-- `Prisma.InvoiceWhereInput`, as the two services fill it in. -/
structure InvoiceWhere where
  tenantId : Option Id
  status : Option String
  gte : Option Int
  lte : Option Int
  deriving DecidableEq, Repr

def InvoiceWhere.selects (w : InvoiceWhere) (row : InvoiceRecord ι) : Bool :=
  row.deletedAt = none && w.tenantId.all (· = row.tenantId) && w.status.all (· = row.status) &&
    w.gte.all (· ≤ row.createdAt) && w.lte.all (row.createdAt ≤ ·)

/-- The columns of the row; with the name of the tenant if that is included. -/
def exportRow (table : InvoiceTable ι) (includeTenant : Bool) (row : InvoiceRecord ι) :
    InvoiceExportRow ι :=
  { id := row.id, invoiceNumber := row.invoiceNumber, status := row.status,
    amountCents := row.amountCents, currency := row.currency, dueAt := row.dueAt,
    paidAt := row.paidAt, createdAt := row.createdAt,
    tenantName := if includeTenant then some (table.tenantName row.tenantId) else none }

variable [LinearOrder ι]

def findInvoiceExportPage (table : InvoiceTable ι) (w : InvoiceWhere) (includeTenant : Bool)
    (cursor : Option (InvoiceExportCursor ι)) (take : Nat) : List (InvoiceExportRow ι) :=
  let pageWhere (row : InvoiceRecord ι) : Bool :=
    w.selects row && cursor.all fun c =>
      c.createdAt < row.createdAt ∨ row.createdAt = c.createdAt ∧ c.id < row.id
  ((orderBy (fun row => toLex (row.createdAt, row.id)) (table.invoices.filter pageWhere)).take
    take).map (exportRow table includeTenant)

structure InvoiceExportFilters where
  status : Option String
  fromDate : Option String
  toDate : Option String
  deriving DecidableEq, Repr

inductive ExportFailure where
  | invalidStartDate | invalidEndDate | startAfterEnd
  deriving DecidableEq, Repr

def ExportFailure.message : ExportFailure → String
  | .invalidStartDate => "Invalid export start date"
  | .invalidEndDate => "Invalid export end date"
  | .startAfterEnd => "Export start date must precede end date"

/-- `/^\d{4}-\d{2}-\d{2}$/`. -/
def isDateOnly (text : String) : Bool :=
  match text.toList with
  | [a, b, c, d, '-', e, f, '-', g, h] => [a, b, c, d, e, f, g, h].all Char.isDigit
  | _ => false

/-- The bounds of the filter.  A text that is empty counts as absent; `parse` is the
constructor of `Date`, which fails for `NaN`. -/
def invoiceExportDateBounds (parse : String → Option Int) (filters : InvoiceExportFilters) :
    Except ExportFailure (Option Int × Option Int) :=
  let given (text : Option String) := text.filter fun text => text ≠ ""
  if (given filters.fromDate).any fun text => parse text = none then .error .invalidStartDate
  else if (given filters.toDate).any fun text => parse text = none then .error .invalidEndDate
  else
    let start := (given filters.fromDate).bind parse
    let stop := (given filters.toDate).bind fun text => (parse text).map fun time =>
      if isDateOnly text then time - time % 86400000 + 86399999 else time
    if start.any fun s => stop.any fun t => t < s then .error .startAfterEnd
    else .ok (start, stop)

/-- `exportInvoices` of the billing service, for one tenant, and of the platform. -/
def exportInvoices (parse : String → Option Int) (table : InvoiceTable ι)
    (tenantId : Option Id) (filters : InvoiceExportFilters) (fuel : Nat) :
    Except ExportFailure (Option (List String)) :=
  match invoiceExportDateBounds parse filters with
  | .error e => .error e
  | .ok (start, stop) =>
      let w : InvoiceWhere :=
        { tenantId, status := filters.status.filter fun status => status ≠ ""
          gte := start, lte := stop }
      .ok (createInvoiceCsvStream (findInvoiceExportPage table w tenantId.isNone)
        tenantId.isNone fuel)

/-! ## Every invoice once -/

/-- The place of an invoice in the export. -/
def exportKey (row : InvoiceRecord ι) : Int ×ₗ ι := toLex (row.createdAt, row.id)

def rowKey (row : InvoiceExportRow ι) : Int ×ₗ ι := toLex (row.createdAt, row.id)

def cursorAt (k : Int ×ₗ ι) : InvoiceExportCursor ι := ⟨(ofLex k).2, (ofLex k).1⟩

omit [LinearOrder ι] in
/-- The loop of the stream, as a loop over rows. -/
theorem readPages_eq
    (fetchPage : Option (InvoiceExportCursor ι) → Nat → List (InvoiceExportRow ι))
    (includeTenant : Bool) (pageSize fuel : Nat) (cursor : Option (Int ×ₗ ι)) :
    createInvoiceCsvStream.readPages fetchPage includeTenant pageSize fuel (cursor.map cursorAt) =
      (Keyset.readAll (fun c => fetchPage (c.map cursorAt) pageSize) rowKey pageSize fuel
        cursor).map (List.map (invoiceCsvRow includeTenant)) := by
  induction fuel generalizing cursor with
  | zero => rfl
  | succ fuel ih =>
      unfold createInvoiceCsvStream.readPages Keyset.readAll
      dsimp only
      by_cases hfull : (fetchPage (cursor.map cursorAt) pageSize).length < pageSize
      · rw [if_pos hfull, if_pos hfull]
        rfl
      · rw [if_neg hfull, if_neg hfull]
        cases hlast : (fetchPage (cursor.map cursorAt) pageSize).getLast? with
        | none => rfl
        | some last =>
            have hnext := ih (some (rowKey last))
            rw [Option.map_some] at hnext
            dsimp only
            show (createInvoiceCsvStream.readPages fetchPage includeTenant pageSize fuel
              (some (cursorAt (rowKey last)))).map _ = _
            rw [hnext, Option.map_map, Option.map_map]
            congr 1
            funext rows
            exact (List.map_append).symm

/-- A page of the repository is a page of the selected invoices. -/
theorem findInvoiceExportPage_eq (table : InvoiceTable ι) (w : InvoiceWhere)
    (includeTenant : Bool) (cursor : Option (Int ×ₗ ι)) (take : Nat) :
    findInvoiceExportPage table w includeTenant (cursor.map cursorAt) take =
      (Keyset.page exportKey (table.invoices.filter w.selects) cursor take).map
        (exportRow table includeTenant) := by
  unfold findInvoiceExportPage Keyset.page
  rw [List.filter_filter]
  dsimp only
  refine congrArg (fun rows => ((orderBy exportKey rows).take take).map
    (exportRow table includeTenant)) (List.filter_congr fun row _ => ?_)
  cases cursor with
  | none => simp
  | some k =>
      have hbehind : (k < exportKey row) ↔ (cursorAt k).createdAt < row.createdAt ∨
          row.createdAt = (cursorAt k).createdAt ∧ (cursorAt k).id < row.id := by
        rw [Prod.Lex.lt_iff, eq_comm (a := row.createdAt)]
        rfl
      rw [Option.map_some, Option.all_some, Option.all_some, Bool.and_comm]
      exact congrArg (· && w.selects row) (decide_eq_decide.mpr hbehind.symm)

omit [LinearOrder ι] in
/-- Of the rows that are selected no two have one place in the export. -/
theorem exportKeys_nodup (table : InvoiceTable ι) (w : InvoiceWhere) :
    ((table.invoices.filter w.selects).map exportKey).Nodup := by
  have hids : ((table.invoices.filter w.selects).map InvoiceRecord.id).Nodup :=
    table.nodup.sublist (List.filter_sublist.map InvoiceRecord.id)
  refine List.Nodup.of_map (fun k : Int ×ₗ ι => (ofLex k).2) ?_
  rw [List.map_map]
  exact hids

/-- The stream, once the loop is done. -/
theorem createInvoiceCsvStream_eq (table : InvoiceTable ι) (w : InvoiceWhere)
    (includeTenant : Bool) {fuel : Nat}
    (hfuel : (table.invoices.filter w.selects).length / 500 < fuel) :
    createInvoiceCsvStream (findInvoiceExportPage table w includeTenant) includeTenant fuel =
      some (headerRow includeTenant :: (orderBy exportKey (table.invoices.filter w.selects)).map
        fun row => invoiceCsvRow includeTenant (exportRow table includeTenant row)) := by
  have hall : Keyset.behind exportKey (table.invoices.filter w.selects) none =
      orderBy exportKey (table.invoices.filter w.selects) :=
    List.filter_eq_self.mpr fun _ _ => rfl
  have hread := Keyset.readAll_eq (by decide : 0 < 500) (exportKeys_nodup table w)
    (fun row => rfl : ∀ row, rowKey (exportRow table includeTenant row) = exportKey row) fuel none
    (by rw [hall, (orderBy_perm _ _).length_eq]; exact hfuel)
  have hpages := readPages_eq (findInvoiceExportPage table w includeTenant) includeTenant 500 fuel
    none
  have hfetch : (fun c : Option (Int ×ₗ ι) =>
      findInvoiceExportPage table w includeTenant (c.map cursorAt) 500) = fun c =>
        (Keyset.page exportKey (table.invoices.filter w.selects) c 500).map
          (exportRow table includeTenant) :=
    funext fun c => findInvoiceExportPage_eq table w includeTenant c 500
  rw [hfetch, hread, hall] at hpages
  show (createInvoiceCsvStream.readPages _ includeTenant 500 fuel none).map _ = _
  have hnone : (none : Option (InvoiceExportCursor ι)) = Option.map cursorAt none := rfl
  rw [hnone, hpages, Option.map_some, Option.map_some, List.map_map]
  rfl

/-- The invoices of a request: those not deleted, of its tenant and its status, from its
first instant to its last. -/
structure Requested (tenantId : Option Id) (filters : InvoiceExportFilters)
    (start stop : Option Int) (row : InvoiceRecord ι) : Prop where
  live : row.deletedAt = none
  tenant : ∀ id ∈ tenantId, row.tenantId = id
  status : ∀ status ∈ filters.status, status ≠ "" → row.status = status
  start : ∀ time ∈ start, time ≤ row.createdAt
  stop : ∀ time ∈ stop, row.createdAt ≤ time

/-- A request whose dates are accepted exports each of its invoices once. -/
theorem exportInvoices_complete {parse : String → Option Int} (table : InvoiceTable ι)
    (tenantId : Option Id) {filters : InvoiceExportFilters} {start stop : Option Int}
    (hdates : invoiceExportDateBounds parse filters = .ok (start, stop)) :
    ∃ rows : List (InvoiceRecord ι), rows.Nodup ∧
      (∀ row, row ∈ rows ↔ row ∈ table.invoices ∧ Requested tenantId filters start stop row) ∧
      ∀ fuel, table.invoices.length / 500 < fuel →
        exportInvoices parse table tenantId filters fuel =
          .ok (some (headerRow tenantId.isNone :: rows.map fun row =>
            invoiceCsvRow tenantId.isNone (exportRow table tenantId.isNone row))) := by
  let w : InvoiceWhere :=
    { tenantId, status := filters.status.filter fun status => status ≠ ""
      gte := start, lte := stop }
  have hselects (row : InvoiceRecord ι) :
      w.selects row = true ↔ Requested tenantId filters start stop row := by
    unfold InvoiceWhere.selects
    simp only [Bool.and_eq_true, decide_eq_true_iff, Option.all_eq_true, w,
      Option.filter_eq_some_iff]
    constructor
    · rintro ⟨⟨⟨⟨hlive, htenant⟩, hstatus⟩, hstart⟩, hstop⟩
      exact ⟨hlive, fun id hid => (htenant id hid).symm, fun status hgiven hne =>
        (hstatus status ⟨hgiven, hne⟩).symm, hstart, hstop⟩
    · intro h
      exact ⟨⟨⟨⟨h.live, fun id hid => (h.tenant id hid).symm⟩, fun status hgiven =>
        (h.status status hgiven.1 hgiven.2).symm⟩, h.start⟩, h.stop⟩
  refine ⟨orderBy exportKey (table.invoices.filter w.selects), ?_, fun row => ?_,
    fun fuel hfuel => ?_⟩
  · exact (orderBy_perm _ _).nodup_iff.mpr (.of_map _ (exportKeys_nodup table w))
  · rw [mem_orderBy, List.mem_filter, hselects]
  · have hfew : (table.invoices.filter w.selects).length / 500 < fuel :=
      (Nat.div_le_div_right (List.length_filter_le _ _)).trans_lt hfuel
    unfold exportInvoices
    rw [hdates]
    exact congrArg Except.ok (createInvoiceCsvStream_eq table w tenantId.isNone hfew)

/-- The stream ends after the first page that is not full.  It has then emitted the
header and, in ascending order of time and id, one row for each invoice selected. -/
theorem export_complete (table : InvoiceTable ι) (w : InvoiceWhere) (includeTenant : Bool) :
    ∃ rows : List (InvoiceRecord ι), rows.Perm (table.invoices.filter w.selects) ∧
      rows.Pairwise (fun a b => a.createdAt < b.createdAt ∨
        a.createdAt = b.createdAt ∧ a.id < b.id) ∧
      ∀ fuel, (table.invoices.filter w.selects).length / 500 < fuel →
        createInvoiceCsvStream (findInvoiceExportPage table w includeTenant) includeTenant fuel =
          some (headerRow includeTenant :: rows.map fun row =>
            invoiceCsvRow includeTenant (exportRow table includeTenant row)) :=
  ⟨orderBy exportKey (table.invoices.filter w.selects), orderBy_perm _ _,
    (Keyset.orderBy_strict (exportKeys_nodup table w)).imp fun hab => Prod.Lex.lt_iff.mp hab,
    fun _ hfuel => createInvoiceCsvStream_eq table w includeTenant hfuel⟩

def tiedInvoice (n : ℕ) : InvoiceRecord ℕ :=
  ⟨n, 1, toString n, "PENDING", 250000, "IDR", none, none, 0, none⟩

/-- Invoices of one instant. -/
def tiedInvoices (count : ℕ) : InvoiceTable ℕ where
  invoices := (List.range count).map tiedInvoice
  nodup := by
    rw [List.map_map]
    exact List.nodup_range.map fun _ _ h => h
  tenantName := fun _ => "Flour Shop"

theorem mem_tiedInvoices {count : ℕ} {row : InvoiceRecord ℕ}
    (h : row ∈ (tiedInvoices count).invoices) : ∃ n, row = tiedInvoice n := by
  obtain ⟨n, -, rfl⟩ := List.mem_map.mp h
  exact ⟨n, rfl⟩

theorem selects_tiedInvoices (count : ℕ) : (tiedInvoices count).invoices.filter
    (InvoiceWhere.selects ⟨none, none, none, none⟩) = (tiedInvoices count).invoices := by
  refine List.filter_eq_self.mpr fun row hrow => ?_
  obtain ⟨n, rfl⟩ := mem_tiedInvoices hrow
  rfl

/-- One more than a page has are on two pages, in the order of their ids. -/
theorem export_complete_example : ∃ rows : List (InvoiceRecord ℕ),
    rows.Perm (tiedInvoices 501).invoices ∧ rows.Pairwise (fun a b => a.id < b.id) ∧
      createInvoiceCsvStream (findInvoiceExportPage (tiedInvoices 501) ⟨none, none, none, none⟩
        true) true 2 = some (headerRow true :: rows.map fun row =>
          invoiceCsvRow true (exportRow (tiedInvoices 501) true row)) := by
  obtain ⟨rows, hperm, hsorted, hstream⟩ :=
    export_complete (tiedInvoices 501) ⟨none, none, none, none⟩ true
  rw [selects_tiedInvoices] at hperm hstream
  have hinstant : ∀ row ∈ rows, row.createdAt = 0 := by
    intro row hrow
    obtain ⟨n, rfl⟩ := mem_tiedInvoices (hperm.mem_iff.mp hrow)
    rfl
  have hlength : (tiedInvoices 501).invoices.length = 501 := by
    unfold tiedInvoices
    rw [List.length_map, List.length_range]
  refine ⟨rows, hperm, hsorted.imp_of_mem fun ha hb hab => ?_, hstream 2 ?_⟩
  · rcases hab with hearlier | ⟨-, hid⟩
    · rw [hinstant _ ha, hinstant _ hb] at hearlier
      exact absurd hearlier (lt_irrefl 0)
    · exact hid
  · rw [hlength]
    decide

/-! ## The text read back -/

/-- The first character that is not white space is one of `=`, `+`, `-`, `@`, or the
white space in front of it holds a tab or a carriage return. -/
def FormulaLike (text : List Char) : Prop :=
  (∃ c ∈ (text.dropWhile isSpace).head?, c ∈ ['=', '+', '-', '@']) ∨
    '\t' ∈ text.takeWhile isSpace ∨ '\r' ∈ text.takeWhile isSpace

theorem formulaPattern_iff (text : List Char) : formulaPattern text = true ↔ FormulaLike text := by
  unfold FormulaLike
  induction text with
  | nil => simp [formulaPattern]
  | cons c text ih =>
      by_cases hspace : isSpace c = true
      · have hsign : c ∉ ['=', '+', '-', '@'] := by
          intro hc
          simp only [List.mem_cons, List.not_mem_nil, or_false] at hc
          rcases hc with rfl | rfl | rfl | rfl <;> exact absurd hspace (by decide)
        rw [List.dropWhile_cons_of_pos hspace, List.takeWhile_cons_of_pos hspace]
        unfold formulaPattern
        rw [hspace, Bool.true_and, Bool.or_eq_true, ih, decide_eq_true_iff]
        simp only [List.mem_cons, List.not_mem_nil, or_false, not_or] at hsign ⊢
        grind
      · have hwhite : c ≠ '\t' ∧ c ≠ '\r' := by
          constructor <;> intro hc <;> subst hc <;> exact hspace rfl
        rw [List.dropWhile_cons_of_neg hspace, List.takeWhile_cons_of_neg hspace]
        unfold formulaPattern
        simp only [List.mem_cons, List.not_mem_nil, or_false, List.head?_cons, Option.mem_def,
          Option.some.injEq, exists_eq_left', Bool.or_eq_true, decide_eq_true_iff, hspace,
          Bool.false_and, Bool.false_eq_true]
        tauto

instance (text : List Char) : Decidable (FormulaLike text) :=
  decidable_of_iff (formulaPattern text = true) (formulaPattern_iff text)

theorem headerRow_eq (includeTenant : Bool) :
    headerRow includeTenant = Csv.row (headers includeTenant) := by
  have hplain : ∀ header ∈ headers includeTenant, csvCell (.text header) = Csv.quoted header := by
    cases includeTenant <;> decide
  unfold headerRow Csv.row
  rw [List.map_congr_left hplain]

omit [LinearOrder ι] in
theorem invoiceCsvRow_eq (includeTenant : Bool) (invoice : InvoiceExportRow ι) :
    invoiceCsvRow includeTenant invoice =
      Csv.row ((invoiceCells includeTenant invoice).map CsvValue.shown) := by
  unfold invoiceCsvRow Csv.row
  rw [List.map_map]
  rfl

/-- With the apostrophe in front, no cell of text begins a formula. -/
theorem shown_text_safe (value : String) {c : Char}
    (h : c ∈ ((CsvValue.text value).shown.toList.dropWhile isSpace).head?) :
    c ∉ ['=', '+', '-', '@'] := by
  intro hc
  unfold CsvValue.shown at h
  dsimp only at h
  split at h
  · have hquote : ("'" ++ value).toList = '\'' :: value.toList := String.toList_append
    rw [hquote, List.dropWhile_cons_of_neg (by decide), List.head?_cons] at h
    obtain rfl : '\'' = c := Option.some.inj h
    exact absurd hc (by decide)
  · rename_i hplain
    exact hplain ((formulaPattern_iff value.toList).mpr (.inl ⟨c, h, hc⟩))

end Billing
end ERP
