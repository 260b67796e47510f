import Mathlib.Data.List.DropRight
import Mathlib.Data.String.Basic

/-!
# Text

`String.prototype.trim`, with the white space and line terminators of
ECMAScript, `padStart` with zeros, from which the number can be read back, the text
of a date, and the code units by which `sort` compares strings.
-/

namespace ERP
namespace Lib

/-- `WhiteSpace` and `LineTerminator`. -/
def isSpace (c : Char) : Bool :=
  c.toNat ∈ [0x09, 0x0A, 0x0B, 0x0C, 0x0D, 0x20, 0xA0, 0x1680, 0x2028, 0x2029, 0x202F, 0x205F,
    0x3000, 0xFEFF] || (0x2000 ≤ c.toNat && c.toNat ≤ 0x200A)

def trim (s : String) : String :=
  String.ofList ((s.toList.dropWhile isSpace).reverse.dropWhile isSpace).reverse

/-- A trimmed text begins and ends with something else than white space. -/
theorem trim_trim (s : String) : trim (trim s) = trim s := by
  have hfront : (trim s).toList.dropWhile isSpace = (trim s).toList := by
    unfold trim
    rw [String.toList_ofList]
    show (List.rdropWhile isSpace (s.toList.dropWhile isSpace)).dropWhile isSpace =
      List.rdropWhile isSpace (s.toList.dropWhile isSpace)
    cases hrest : List.rdropWhile isSpace (s.toList.dropWhile isSpace) with
    | nil => rfl
    | cons c rest =>
        obtain ⟨tail, htail⟩ := List.rdropWhile_prefix isSpace (l := s.toList.dropWhile isSpace)
        rw [hrest, List.cons_append] at htail
        have hself := List.dropWhile_idempotent isSpace s.toList
        rw [← htail] at hself
        by_cases hc : isSpace c = true
        · rw [List.dropWhile_cons_of_pos hc] at hself
          have hlength := congrArg List.length hself
          have hle := (List.dropWhile_suffix isSpace (l := rest ++ tail)).length_le
          rw [List.length_cons] at hlength
          omega
        · exact List.dropWhile_cons_of_neg hc
  show String.ofList (List.rdropWhile isSpace ((trim s).toList.dropWhile isSpace)) = trim s
  rw [hfront]
  unfold trim
  rw [String.toList_ofList]
  exact congrArg String.ofList (List.rdropWhile_idempotent isSpace _)

/-- `String(n).padStart(width, '0')`. -/
def padStart (width n : Nat) : String :=
  String.ofList (List.replicate (width - (toString n).length) '0') ++ toString n

theorem toList_padStart (width n : Nat) : (padStart width n).toList =
    List.replicate (width - (Nat.toDigits 10 n).length) '0' ++ Nat.toDigits 10 n := by
  unfold padStart
  rw [String.toList_append, String.toList_ofList, Nat.toString_eq_repr, Nat.toList_repr,
    ← String.length_toList, Nat.toList_repr]

theorem isDigit_padStart {width n : Nat} {c : Char} (h : c ∈ (padStart width n).toList) :
    c.isDigit := by
  rw [toList_padStart, List.mem_append] at h
  rcases h with h | h
  · rw [(List.mem_replicate.mp h).2]
    rfl
  · exact Nat.isDigit_of_mem_toDigits (by decide) (by decide) h

/-- The padding does not change the number that is read. -/
theorem ofDigitChars_padStart (width n : Nat) :
    Nat.ofDigitChars 10 (padStart width n).toList 0 = n := by
  rw [toList_padStart]
  induction width - (Nat.toDigits 10 n).length with
  | zero => exact Nat.ofDigitChars_ten_toDigits
  | succ k ih =>
      rw [List.replicate_succ, List.cons_append, Nat.ofDigitChars_cons]
      exact ih

theorem padStart_injective (width : Nat) : Function.Injective (padStart width) := by
  intro m n h
  rw [← ofDigitChars_padStart width m, h, ofDigitChars_padStart]

/-- A number of one or two digits fills a field of two. -/
theorem length_padStart_two {n : Nat} (h : n < 100) : (padStart 2 n).toList.length = 2 := by
  have hle : (Nat.toDigits 10 n).length ≤ 2 :=
    (Nat.length_toDigits_le_iff (by decide) (by decide)).mpr h
  rw [toList_padStart, List.length_append, List.length_replicate]
  omega

/-- The year, the month and the day of a day counted from 1970-01-01.  Years begin with
March here, so that the day that leap years add is the last of its year. -/
def civilDate (day : Int) : Int × Nat × Nat :=
  let shifted := day + 719468
  let era := shifted / 146097
  let dayOfEra := (shifted % 146097).toNat
  let yearOfEra :=
    (dayOfEra - dayOfEra / 1460 + dayOfEra / 36524 - dayOfEra / 146096) / 365
  let dayOfYear := dayOfEra - (365 * yearOfEra + yearOfEra / 4 - yearOfEra / 100)
  let part := (5 * dayOfYear + 2) / 153
  let month := if part < 10 then part + 3 else part - 9
  let year := yearOfEra + era * 400
  (if month ≤ 2 then year + 1 else year, month, dayOfYear - (153 * part + 2) / 5 + 1)

/-- `Date.prototype.toISOString` of a time in milliseconds. -/
def toISOString (time : Int) : String :=
  let (year, month, day) := civilDate (time / 86400000)
  let ms := (time % 86400000).toNat
  let yearText := if 0 ≤ year ∧ year ≤ 9999 then padStart 4 year.toNat
    else (if year < 0 then "-" else "+") ++ padStart 6 year.natAbs
  yearText ++ "-" ++ padStart 2 month ++ "-" ++ padStart 2 day ++ "T" ++
    padStart 2 (ms / 3600000) ++ ":" ++ padStart 2 (ms / 60000 % 60) ++ ":" ++
    padStart 2 (ms / 1000 % 60) ++ "." ++ padStart 3 (ms % 1000) ++ "Z"

example : toISOString 1791676799999 = "2026-10-10T23:59:59.999Z" := by decide +kernel

/-- The UTF-16 code units of a string. -/
def codeUnits (s : String) : List Nat :=
  s.toList.flatMap fun c =>
    if c.toNat < 0x10000 then [c.toNat]
    else [0xD800 + (c.toNat - 0x10000) / 0x400, 0xDC00 + (c.toNat - 0x10000) % 0x400]

end Lib
end ERP
