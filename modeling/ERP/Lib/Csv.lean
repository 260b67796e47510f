import Mathlib.Data.String.Basic

/-!
# Comma-separated values

A reader for RFC 4180: records end in CR LF, the last may end with the text; fields
are separated by commas; a field in quotes may hold commas, line breaks and quotes,
each quote written twice.  What is written with every field in quotes is read back.
-/

namespace ERP
namespace Lib
namespace Csv

/-- Where the reader is: before a record, before a further field, in a field without
quotes, between quotes, after a quote that may close the field, after a CR. -/
inductive Place where
  | record | field | text | quoted | quote | carriage
  deriving DecidableEq, Repr

/-- The records that were read, and the fields and characters of the one being read. -/
structure Reader where
  place : Place
  records : List (List String)
  fields : List String
  text : List Char
  deriving DecidableEq, Repr

namespace Reader

def start : Reader := ⟨.record, [], [], []⟩

def push (r : Reader) (place : Place) (c : Char) : Reader := { r with place, text := r.text ++ [c] }

def endField (r : Reader) (place : Place) : Reader :=
  { r with place, fields := r.fields ++ [String.ofList r.text], text := [] }

def endRecord (r : Reader) : Reader := ⟨.record, r.records ++ [r.fields], [], []⟩

/-- What may follow a field. -/
def close (r : Reader) (c : Char) : Option Reader :=
  if c = ',' then some (r.endField .field)
  else if c = '\r' then some (r.endField .carriage)
  else none

def step (r : Reader) (c : Char) : Option Reader :=
  match r.place with
  | .record | .field =>
      if c = '"' then some { r with place := .quoted }
      else if c = ',' ∨ c = '\r' then r.close c
      else if c = '\n' then none
      else some (r.push .text c)
  | .text =>
      if c = ',' ∨ c = '\r' then r.close c
      else if c = '"' ∨ c = '\n' then none
      else some (r.push .text c)
  | .quoted => if c = '"' then some { r with place := .quote } else some (r.push .quoted c)
  | .quote => if c = '"' then some (r.push .quoted c) else r.close c
  | .carriage => if c = '\n' then some r.endRecord else none

def run (r : Reader) (text : List Char) : Option Reader := text.foldlM step r

/-- The end of the text ends a record that was begun. -/
def finish (r : Reader) : Option (List (List String)) :=
  match r.place with
  | .record => some r.records
  | .field | .text | .quote => some (r.endField .record).endRecord.records
  | .quoted | .carriage => none

end Reader

/-- The records of a text, if it is one that RFC 4180 allows. -/
def read (text : String) : Option (List (List String)) :=
  (Reader.start.run text.toList).bind Reader.finish

/-- `text.replaceAll('"', '""')`. -/
def doubled (text : List Char) : List Char :=
  text.flatMap fun c => if c = '"' then ['"', '"'] else [c]

/-- A field in quotes. -/
def quoted (text : String) : String :=
  String.ofList ('"' :: (doubled text.toList ++ ['"']))

/-- A record with every field in quotes. -/
def row (cells : List String) : String :=
  ",".intercalate (cells.map quoted) ++ "\r\n"

namespace Reader

variable {records : List (List String)} {fields : List String} {place : Place}

theorem run_cons (r : Reader) (c : Char) (text : List Char) :
    r.run (c :: text) = (r.step c).bind fun r' => r'.run text :=
  List.foldlM_cons

/-- Between quotes every character is read as it was. -/
theorem run_doubled (text before rest : List Char) :
    (⟨.quoted, records, fields, before⟩ : Reader).run (doubled text ++ rest) =
      (⟨.quoted, records, fields, before ++ text⟩ : Reader).run rest := by
  induction text generalizing before with
  | nil => rw [List.append_nil]; rfl
  | cons c text ih =>
      have hmore : before ++ c :: text = (before ++ [c]) ++ text := by
        rw [List.append_assoc, List.singleton_append]
      unfold doubled at ih ⊢
      rw [List.flatMap_cons, hmore, ← ih]
      by_cases hc : c = '"'
      · subst hc
        rfl
      · rw [if_neg hc, List.append_assoc, List.singleton_append, run_cons]
        have hstep : (⟨.quoted, records, fields, before⟩ : Reader).step c =
            some ⟨.quoted, records, fields, before ++ [c]⟩ := if_neg hc
        rw [hstep, Option.bind_some]

/-- A field in quotes, up to its closing quote. -/
theorem run_quoted (hplace : place = .record ∨ place = .field) (text : String) (rest : List Char) :
    (⟨place, records, fields, []⟩ : Reader).run ((quoted text).toList ++ rest) =
      (⟨.quote, records, fields, text.toList⟩ : Reader).run rest := by
  have hopen : (⟨place, records, fields, []⟩ : Reader).step '"' =
      some ⟨.quoted, records, fields, []⟩ := by
    rcases hplace with rfl | rfl <;> rfl
  unfold quoted
  rw [String.toList_ofList, List.cons_append, run_cons, hopen, Option.bind_some,
    List.append_assoc, run_doubled, List.nil_append, List.singleton_append, run_cons]
  rfl

theorem run_row (hplace : place = .record ∨ place = .field) {cells : List String}
    (hcells : cells ≠ []) (rest : List Char) :
    (⟨place, records, fields, []⟩ : Reader).run ((row cells).toList ++ rest) =
      (⟨.record, records ++ [fields ++ cells], [], []⟩ : Reader).run rest := by
  induction cells generalizing place fields with
  | nil => exact absurd rfl hcells
  | cons cell cells ih =>
      have hdone : String.ofList cell.toList = cell := String.ofList_toList
      cases cells with
      | nil =>
          have hrow : (row [cell]).toList = (quoted cell).toList ++ ['\r', '\n'] := by
            unfold row
            rw [List.map_singleton, String.intercalate_singleton, String.toList_append]
            congr 1
          rw [hrow, List.append_assoc, run_quoted hplace]
          show (⟨.record, records ++ [fields ++ [String.ofList cell.toList]], [], []⟩ :
            Reader).run rest = _
          rw [hdone]
      | cons next cells =>
          have hrow : (row (cell :: next :: cells)).toList =
              (quoted cell).toList ++ ',' :: (row (next :: cells)).toList := by
            unfold row
            rw [List.map_cons, List.map_cons, String.intercalate_cons_cons]
            simp
          rw [hrow, List.append_assoc, run_quoted hplace, List.cons_append]
          show (⟨.field, records, fields ++ [String.ofList cell.toList], []⟩ : Reader).run
            ((row (next :: cells)).toList ++ rest) = _
          rw [hdone, ih (.inr rfl) (List.cons_ne_nil next cells), List.append_assoc,
            List.singleton_append]

end Reader

/-- What is written with every field in quotes is read back. -/
theorem read_rows (rows : List (List String)) (h : ∀ cells ∈ rows, cells ≠ []) :
    read (String.join (rows.map row)) = some rows := by
  have hrun (rows : List (List String)) (h : ∀ cells ∈ rows, cells ≠ [])
      (records : List (List String)) :
      (⟨.record, records, [], []⟩ : Reader).run (String.join (rows.map row)).toList =
        some ⟨.record, records ++ rows, [], []⟩ := by
    induction rows generalizing records with
    | nil => rw [List.append_nil]; rfl
    | cons cells rows ih =>
        rw [String.toList_join, List.map_cons, List.flatMap_cons,
          Reader.run_row (.inl rfl) (h cells List.mem_cons_self), ← String.toList_join,
          ih (fun c hc => h c (List.mem_cons_of_mem cells hc)), List.append_assoc,
          List.nil_append, List.singleton_append]
  unfold read Reader.start
  rw [hrun rows h, Option.bind_some]
  rfl

end Csv
end Lib
end ERP
