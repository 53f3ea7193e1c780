import NetServices.TextReader
import Mathlib.Data.Int.Notation
import Mathlib.Data.List.TakeWhile

set_option autoImplicit false

/-!
# Decimal numbers as text

Parsing in the style that integers are parsed in by default: white space on both
sides, a sign, and NULs at the very end are allowed. Printing gives plain digits,
which parse back.
-/
namespace NetServices.Numerals
open Utf16 (Str)

def minus : UInt16 := 0x2D
def plus : UInt16 := 0x2B

def isWhite (c : UInt16) : Bool := c == 0x20 || (0x09 ≤ c.toNat && c.toNat ≤ 0x0D)
def isDigit (c : UInt16) : Bool := 0x30 ≤ c.toNat && c.toNat ≤ 0x39

def digitsValue (s : Str) : ℕ := s.foldl (fun value c => 10 * value + (c.toNat - 0x30)) 0

def takeSign : Str → Bool × Str
  | [] => (false, [])
  | c :: s => if c = minus then (true, s) else if c = plus then (false, s) else (false, c :: s)

def parseInteger (s : Str) : Option ℤ :=
  let (negative, s) := takeSign (s.dropWhile isWhite)
  let digits := s.takeWhile isDigit
  let rest := (s.dropWhile isDigit).dropWhile isWhite
  if digits = [] then none
  else if rest.all (· == 0) then
    some (if negative then -(digitsValue digits : ℤ) else digitsValue digits)
  else none

def toInt (value : ℤ) : Option ℤ :=
  if -2147483648 ≤ value ∧ value < 2147483648 then some value else none

def toULong (value : ℤ) : Option UInt64 :=
  if 0 ≤ value ∧ value < 18446744073709551616 then some (UInt64.ofNat value.toNat) else none

/-- `int.TryParse` and `int.Parse`; the line is missing at the end of a stream. -/
def parseInt (line : Option Str) : Option ℤ := line.bind fun s => (parseInteger s).bind toInt

/-- `ulong.TryParse` and `ulong.Parse`. -/
def parseULong (line : Option Str) : Option UInt64 :=
  line.bind fun s => (parseInteger s).bind toULong

def decimal (n : ℕ) : Str := (Nat.toDigits 10 n).map fun c => UInt16.ofNat c.toNat

theorem digit_unit {c : Char} (h : c.isDigit = true) :
    (UInt16.ofNat c.toNat).toNat = c.toNat ∧ 0x30 ≤ c.toNat ∧ c.toNat ≤ 0x39 := by
  have hc : 48 ≤ c.toNat ∧ c.toNat ≤ 57 := by
    simpa [Char.isDigit, UInt32.le_iff_toNat_le] using h
  exact ⟨Utf16.toNat_ofNat_of_lt (by omega), hc⟩

theorem decimal_digits (n : ℕ) : ∀ c ∈ decimal n, isDigit c = true := by
  intro c hc
  obtain ⟨d, hd, rfl⟩ := List.mem_map.mp hc
  obtain ⟨hu, hlo, hhi⟩ := digit_unit (Nat.isDigit_of_mem_toDigits (by decide) (by decide) hd)
  simp [isDigit, hu, hlo, hhi]

theorem decimal_ne_nil (n : ℕ) : decimal n ≠ [] := by
  rw [decimal, ne_eq, List.map_eq_nil_iff]
  exact Nat.toDigits_ne_nil

theorem digitsValue_decimal (n : ℕ) : digitsValue (decimal n) = n := by
  have key : ∀ (cs : List Char) (value : ℕ), (∀ c ∈ cs, c.isDigit = true) →
      (cs.map fun c => UInt16.ofNat c.toNat).foldl
        (fun value c => 10 * value + (c.toNat - 0x30)) value = Nat.ofDigitChars 10 cs value := by
    intro cs
    induction cs with
    | nil => exact fun _ _ => rfl
    | cons c cs ih =>
      intro value hcs
      rw [List.map_cons, List.foldl_cons, Nat.ofDigitChars_cons,
        (digit_unit (hcs c List.mem_cons_self)).1]
      exact ih _ fun d hd => hcs d (List.mem_cons_of_mem c hd)
  rw [digitsValue, decimal, key _ 0 fun c hc =>
    Nat.isDigit_of_mem_toDigits (by decide) (by decide) hc]
  exact Nat.ofDigitChars_ten_toDigits

theorem digit_plain {c : UInt16} (h : isDigit c = true) :
    isWhite c = false ∧ c ≠ minus ∧ c ≠ plus ∧ c ≠ TextReader.lf ∧ c ≠ TextReader.cr := by
  simp only [isDigit, Bool.and_eq_true, decide_eq_true_eq] at h
  have hne : ∀ d : UInt16, d.toNat < 0x30 → c ≠ d := by
    rintro d hd rfl
    omega
  refine ⟨?_, hne _ (by decide), hne _ (by decide), hne _ (by decide), hne _ (by decide)⟩
  simp only [isWhite, Bool.or_eq_false_iff, beq_eq_false_iff_ne, Bool.and_eq_false_iff,
    decide_eq_false_iff_not]
  exact ⟨hne _ (by decide), .inr (by omega)⟩

theorem parseInteger_digits {s : Str} (hne : s ≠ []) (hs : ∀ c ∈ s, isDigit c = true) :
    parseInteger s = some (digitsValue s : ℤ) := by
  cases s with
  | nil => exact absurd rfl hne
  | cons c s =>
    obtain ⟨hwhite, hminus, hplus, -, -⟩ := digit_plain (hs c List.mem_cons_self)
    have htake : (c :: s).takeWhile isDigit = c :: s := List.takeWhile_eq_self_iff.mpr hs
    have hdrop : (c :: s).dropWhile isDigit = [] := List.dropWhile_eq_nil_iff.mpr hs
    have hsign : takeSign (c :: s) = (false, c :: s) := by
      rw [takeSign, if_neg hminus, if_neg hplus]
    rw [parseInteger, List.dropWhile_cons_of_neg (by rw [hwhite]; exact Bool.false_ne_true), hsign]
    simp only [htake, hdrop, List.dropWhile_nil, List.all_nil, if_true, reduceCtorEq, if_false,
      Bool.false_eq_true]

theorem dropWhile_concat {p : UInt16 → Bool} {c : UInt16} (hc : p c = false) (s : Str) :
    ∃ rest, (s ++ [c]).dropWhile p = rest ++ [c] := by
  induction s with
  | nil => exact ⟨[], by rw [List.nil_append, List.dropWhile_cons, hc]; rfl⟩
  | cons d s ih =>
    rw [List.cons_append, List.dropWhile_cons]
    split
    · exact ih
    · exact ⟨d :: s, rfl⟩

theorem takeSign_concat {c : UInt16} (hminus : c ≠ minus) (hplus : c ≠ plus) (s : Str) :
    ∃ rest, (takeSign (s ++ [c])).2 = rest ++ [c] := by
  cases s with
  | nil => exact ⟨[], by rw [List.nil_append, takeSign, if_neg hminus, if_neg hplus]⟩
  | cons d s =>
    rw [List.cons_append, takeSign]
    split_ifs
    · exact ⟨s, rfl⟩
    · exact ⟨s, rfl⟩
    · exact ⟨d :: s, rfl⟩

/-- A number does not end in a letter. -/
theorem parseULong_letter {c : UInt16} (hc : 0x41 ≤ c.toNat ∧ c.toNat ≤ 0x7A) (s : Str) :
    parseULong (some (s ++ [c])) = none := by
  have hne : ∀ d : UInt16, d.toNat < 0x41 → c ≠ d := by
    rintro d hd rfl
    omega
  have hwhite : isWhite c = false := by
    simp only [isWhite, Bool.or_eq_false_iff, beq_eq_false_iff_ne, Bool.and_eq_false_iff,
      decide_eq_false_iff_not]
    exact ⟨hne _ (by decide), .inr (by omega)⟩
  have hdigit : isDigit c = false := by
    simp only [isDigit, Bool.and_eq_false_iff, decide_eq_false_iff_not]
    omega
  obtain ⟨text, htext⟩ := dropWhile_concat hwhite s
  obtain ⟨digits, hdigits⟩ := takeSign_concat (hne minus (by decide)) (hne plus (by decide)) text
  obtain ⟨tail, htail⟩ := dropWhile_concat hdigit digits
  obtain ⟨rest, hrest⟩ := dropWhile_concat hwhite tail
  have hzero : (rest ++ [c]).all (· == 0) = false := by
    rw [List.all_append, List.all_cons, beq_eq_false_iff_ne.mpr (hne 0 (by decide)),
      Bool.false_and, Bool.and_false]
  rw [parseULong, Option.bind_some, parseInteger, htext]
  simp only [hdigits, htail, hrest, hzero, Bool.false_eq_true, if_false, ite_self, Option.bind_none]

theorem toULong_toNat (id : UInt64) : toULong (id.toNat : ℤ) = some id := by
  have hid := id.toNat_lt
  have hrange : 0 ≤ (id.toNat : ℤ) ∧ (id.toNat : ℤ) < 18446744073709551616 := by omega
  rw [toULong, if_pos hrange, Int.toNat_natCast, UInt64.ofNat_toNat]

theorem parseULong_decimal (id : UInt64) : parseULong (some (decimal id.toNat)) = some id := by
  have hv := parseInteger_digits (decimal_ne_nil id.toNat) (decimal_digits id.toNat)
  rw [digitsValue_decimal] at hv
  rw [parseULong, Option.bind_some, hv, Option.bind_some, toULong_toNat]

theorem parseInt_decimal {n : ℕ} (h : n < 2147483648) :
    parseInt (some (decimal n)) = some (n : ℤ) := by
  have hv := parseInteger_digits (decimal_ne_nil n) (decimal_digits n)
  rw [digitsValue_decimal] at hv
  rw [parseInt, Option.bind_some, hv, Option.bind_some, toInt, if_pos (by omega)]

theorem parseInt_decimal_large {n : ℕ} (h : ¬ n < 2147483648) :
    parseInt (some (decimal n)) = none := by
  have hv := parseInteger_digits (decimal_ne_nil n) (decimal_digits n)
  rw [digitsValue_decimal] at hv
  rw [parseInt, Option.bind_some, hv, Option.bind_some, toInt, if_neg (by omega)]

theorem decimal_wellFormed (n : ℕ) : Utf16.WellFormed (decimal n) := by
  refine ⟨Nat.toDigits 10 n, ?_⟩
  have hsmall : ∀ c ∈ Nat.toDigits 10 n, Utf16.encodeChar c = [UInt16.ofNat c.toNat] := by
    intro c hc
    have hdigit := digit_unit (Nat.isDigit_of_mem_toDigits (by decide) (by decide) hc)
    exact Utf16.encodeChar_small (by omega)
  rw [decimal, Utf16.encode, List.map_eq_flatMap, List.flatMap_def, List.flatMap_def,
    List.map_congr_left hsmall]

theorem decimal_isLine (n : ℕ) : TextReader.IsLine (decimal n) := by
  refine ⟨fun h => ?_, fun h => ?_⟩
  · exact (digit_plain (decimal_digits n _ h)).2.2.2.1 rfl
  · exact (digit_plain (decimal_digits n _ h)).2.2.2.2 rfl

end NetServices.Numerals
