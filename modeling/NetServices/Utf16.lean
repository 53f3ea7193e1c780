import Mathlib.Tactic.Common
import Mathlib.Data.List.DropRight
import Mathlib.Data.Nat.Notation

set_option autoImplicit false

/-!
# UTF-16 text

A managed string is a sequence of 16-bit code units that need not be
well-formed. `encode` writes Unicode text as code units, `decode` reads code
units back and replaces every unpaired surrogate by U+FFFD, and `feed` is the
state of a strict encoder that refuses unpaired surrogates and holds a final
high surrogate back.
-/
namespace NetServices.Utf16

/-- A string as its code units, well-formed or not. -/
abbrev Str := List UInt16

def replacement : Char := '\uFFFD'

def isHigh (u : UInt16) : Bool := 0xD800 ≤ u.toNat && u.toNat ≤ 0xDBFF
def isLow (u : UInt16) : Bool := 0xDC00 ≤ u.toNat && u.toNat ≤ 0xDFFF
def isSurrogate (u : UInt16) : Bool := isHigh u || isLow u

def encodeChar (c : Char) : Str :=
  if c.toNat < 0x10000 then [UInt16.ofNat c.toNat]
  else [UInt16.ofNat (0xD800 + (c.toNat - 0x10000) / 0x400),
    UInt16.ofNat (0xDC00 + (c.toNat - 0x10000) % 0x400)]

def encode (cs : List Char) : Str := cs.flatMap encodeChar

/-- The code units of a literal. -/
def lit (s : String) : Str := encode s.toList

def isWhiteSpace (u : UInt16) : Bool :=
  (0x09 ≤ u.toNat && u.toNat ≤ 0x0D) || u == 0x20 || u == 0x85 || u == 0xA0 || u == 0x1680 ||
    (0x2000 ≤ u.toNat && u.toNat ≤ 0x200A) || u == 0x2028 || u == 0x2029 || u == 0x202F ||
    u == 0x205F || u == 0x3000

def trim (s : Str) : Str := (s.dropWhile isWhiteSpace).rdropWhile isWhiteSpace

def isNullOrWhiteSpace (value : Option Str) : Bool := (value.getD []).all isWhiteSpace

def unitChar (u : UInt16) : Char := if isSurrogate u then replacement else Char.ofNat u.toNat
def pairChar (u v : UInt16) : Char :=
  Char.ofNat (0x10000 + (u.toNat - 0xD800) * 0x400 + (v.toNat - 0xDC00))

def decode : Str → List Char
  | [] => []
  | [u] => [unitChar u]
  | u :: v :: rest =>
    if isHigh u && isLow v then pairChar u v :: decode rest else unitChar u :: decode (v :: rest)

/-- A strict encoder, with the high surrogate that it holds; none when it raises. -/
def feed : Option UInt16 → Str → Option (Option UInt16)
  | held, [] => some held
  | none, u :: s => if isHigh u then feed (some u) s else if isLow u then none else feed none s
  | some _, u :: s => if isLow u then feed none s else none

/-- Text without unpaired surrogates. -/
def WellFormed (s : Str) : Prop := ∃ cs, s = encode cs

theorem char_range (c : Char) : c.toNat < 0xD800 ∨ 0xDFFF < c.toNat ∧ c.toNat < 0x110000 := c.valid

theorem encodeChar_small {c : Char} (h : c.toNat < 0x10000) :
    encodeChar c = [UInt16.ofNat c.toNat] := by
  simp [encodeChar, h]

theorem encodeChar_large {c : Char} (h : ¬ c.toNat < 0x10000) :
    encodeChar c = [UInt16.ofNat (0xD800 + (c.toNat - 0x10000) / 0x400),
      UInt16.ofNat (0xDC00 + (c.toNat - 0x10000) % 0x400)] := by
  simp [encodeChar, h]

theorem toNat_ofNat_of_lt {n : ℕ} (h : n < 0x10000) : (UInt16.ofNat n).toNat = n := by
  rw [UInt16.toNat_ofNat']
  exact Nat.mod_eq_of_lt h

theorem small_not_surrogate {c : Char} (h : c.toNat < 0x10000) :
    isHigh (UInt16.ofNat c.toNat) = false ∧ isLow (UInt16.ofNat c.toNat) = false := by
  have hc := char_range c
  simp only [isHigh, isLow, toNat_ofNat_of_lt h, Bool.and_eq_false_iff, decide_eq_false_iff_not]
  omega

theorem unitChar_small {c : Char} (h : c.toNat < 0x10000) : unitChar (UInt16.ofNat c.toNat) = c := by
  have hs := small_not_surrogate h
  simp [unitChar, isSurrogate, hs.1, hs.2, toNat_ofNat_of_lt h]

theorem large_pair {c : Char} (h : ¬ c.toNat < 0x10000) :
    isHigh (UInt16.ofNat (0xD800 + (c.toNat - 0x10000) / 0x400)) = true ∧
    isLow (UInt16.ofNat (0xDC00 + (c.toNat - 0x10000) % 0x400)) = true ∧
    pairChar (UInt16.ofNat (0xD800 + (c.toNat - 0x10000) / 0x400))
      (UInt16.ofNat (0xDC00 + (c.toNat - 0x10000) % 0x400)) = c := by
  have hc := char_range c
  have hu := toNat_ofNat_of_lt (n := 0xD800 + (c.toNat - 0x10000) / 0x400) (by omega)
  have hv := toNat_ofNat_of_lt (n := 0xDC00 + (c.toNat - 0x10000) % 0x400) (by omega)
  refine ⟨?_, ?_, ?_⟩
  · simp only [isHigh, hu, Bool.and_eq_true, decide_eq_true_eq]
    omega
  · simp only [isLow, hv, Bool.and_eq_true, decide_eq_true_eq]
    omega
  · have hn : 0x10000 + (0xD800 + (c.toNat - 0x10000) / 0x400 - 0xD800) * 0x400 +
        (0xDC00 + (c.toNat - 0x10000) % 0x400 - 0xDC00) = c.toNat := by omega
    rw [pairChar, hu, hv, hn, Char.ofNat_toNat]

theorem decode_unit (u : UInt16) (s : Str) (h : isHigh u = false) :
    decode (u :: s) = unitChar u :: decode s := by
  cases s with
  | nil => rfl
  | cons v rest => simp [decode, h]

theorem decode_encodeChar_append (c : Char) (s : Str) :
    decode (encodeChar c ++ s) = c :: decode s := by
  by_cases h : c.toNat < 0x10000
  · rw [encodeChar_small h, List.singleton_append, decode_unit _ _ (small_not_surrogate h).1,
      unitChar_small h]
  · obtain ⟨hu, hv, hp⟩ := large_pair h
    rw [encodeChar_large h]
    simp only [List.cons_append, List.nil_append, decode, hu, hv, Bool.and_self, ite_true, hp]

theorem decode_encode (cs : List Char) : decode (encode cs) = cs := by
  induction cs with
  | nil => rfl
  | cons c cs ih =>
    change decode (encodeChar c ++ encode cs) = _
    rw [decode_encodeChar_append, ih]

theorem encode_decode {s : Str} (h : WellFormed s) : encode (decode s) = s := by
  obtain ⟨cs, rfl⟩ := h
  rw [decode_encode]

theorem encode_append (cs ds : List Char) : encode (cs ++ ds) = encode cs ++ encode ds := by
  simp [encode]

theorem wellFormed_lit (s : String) : WellFormed (lit s) := ⟨s.toList, rfl⟩

theorem WellFormed.append {s t : Str} (hs : WellFormed s) (ht : WellFormed t) :
    WellFormed (s ++ t) := by
  obtain ⟨cs, rfl⟩ := hs
  obtain ⟨ds, rfl⟩ := ht
  exact ⟨cs ++ ds, (encode_append cs ds).symm⟩

/-- A strict encoder takes well-formed text and holds nothing back. -/
theorem feed_wellFormed {s : Str} (h : WellFormed s) : feed none s = some none := by
  obtain ⟨cs, rfl⟩ := h
  induction cs with
  | nil => rfl
  | cons c cs ih =>
    change feed none (encodeChar c ++ encode cs) = some none
    by_cases hc : c.toNat < 0x10000
    · obtain ⟨hhigh, hlow⟩ := small_not_surrogate hc
      rw [encodeChar_small hc, List.singleton_append, feed, hhigh, hlow]
      exact ih
    · obtain ⟨hhigh, hlow, -⟩ := large_pair hc
      rw [encodeChar_large hc, List.cons_append, List.cons_append, List.nil_append, feed, hhigh,
        if_pos rfl, feed, hlow, if_pos rfl]
      exact ih

theorem feed_append (held : Option UInt16) (s t : Str) :
    feed held (s ++ t) = (feed held s).bind fun held => feed held t := by
  induction s generalizing held with
  | nil => cases held <;> cases t <;> rfl
  | cons u s ih =>
    cases held with
    | none =>
      rw [List.cons_append, feed, feed]
      split_ifs
      · exact ih (some u)
      · rfl
      · exact ih none
    | some h =>
      rw [List.cons_append, feed, feed]
      split_ifs
      · exact ih none
      · rfl

/-- Only a high surrogate is held back. -/
theorem feed_concat {held held' : Option UInt16} {s : Str} {u : UInt16} (hu : isHigh u = false)
    (h : feed held (s ++ [u]) = some held') : held' = none := by
  rw [feed_append] at h
  obtain ⟨before, -, hlast⟩ := Option.bind_eq_some_iff.mp h
  cases before with
  | none =>
    rw [feed, hu, if_neg Bool.false_ne_true] at hlast
    split_ifs at hlast
    exact (Option.some.inj hlast).symm
  | some v =>
    rw [feed] at hlast
    split_ifs at hlast
    exact (Option.some.inj hlast).symm

theorem toNat_charOfNat {n : ℕ} (h : n.isValidChar) : (Char.ofNat n).toNat = n := by
  rw [Char.ofNat, dif_pos h]
  rfl

theorem encodeChar_unit {u : UInt16} (hhigh : isHigh u = false) (hlow : isLow u = false) :
    encodeChar (Char.ofNat u.toNat) = [u] := by
  have hu := u.toNat_lt
  simp only [isHigh, isLow, Bool.and_eq_false_iff, decide_eq_false_iff_not] at hhigh hlow
  have hvalid : u.toNat.isValidChar := by
    simp only [Nat.isValidChar]
    omega
  have hchar : (Char.ofNat u.toNat).toNat = u.toNat := toNat_charOfNat hvalid
  rw [encodeChar_small (by omega), hchar, UInt16.ofNat_toNat]

theorem encodeChar_pair {u v : UInt16} (hu : isHigh u = true) (hv : isLow v = true) :
    encodeChar (pairChar u v) = [u, v] := by
  simp only [isHigh, isLow, Bool.and_eq_true, decide_eq_true_eq] at hu hv
  have hvalid : (0x10000 + (u.toNat - 0xD800) * 0x400 + (v.toNat - 0xDC00)).isValidChar := by
    simp only [Nat.isValidChar]
    omega
  have hchar : (pairChar u v).toNat =
      0x10000 + (u.toNat - 0xD800) * 0x400 + (v.toNat - 0xDC00) := toNat_charOfNat hvalid
  rw [encodeChar_large (by omega), hchar]
  have hhigh : 0xD800 + (0x10000 + (u.toNat - 0xD800) * 0x400 + (v.toNat - 0xDC00) -
      0x10000) / 0x400 = u.toNat := by omega
  have hlow : 0xDC00 + (0x10000 + (u.toNat - 0xD800) * 0x400 + (v.toNat - 0xDC00) -
      0x10000) % 0x400 = v.toNat := by omega
  rw [hhigh, hlow, UInt16.ofNat_toNat, UInt16.ofNat_toNat]

theorem WellFormed.cons {c : Char} {s : Str} (hs : WellFormed s) :
    WellFormed (encodeChar c ++ s) := by
  obtain ⟨cs, rfl⟩ := hs
  exact ⟨c :: cs, rfl⟩

/-- A strict encoder that ends between two characters was fed well-formed text. -/
theorem wellFormed_of_feed {held : Option UInt16} {s : Str} (h : feed held s = some none)
    (hheld : ∀ u, held = some u → isHigh u = true) : WellFormed (held.toList ++ s) := by
  induction s generalizing held with
  | nil =>
    cases held with
    | none => exact ⟨[], rfl⟩
    | some u => cases h
  | cons v s ih =>
    cases held with
    | none =>
      rw [feed] at h
      split_ifs at h with hhigh hlow
      · exact ih h fun u hu => Option.some.inj hu ▸ hhigh
      · have hchar := encodeChar_unit (Bool.eq_false_iff.mpr hhigh) (Bool.eq_false_iff.mpr hlow)
        have hs := (ih h nofun).cons (c := Char.ofNat v.toNat)
        rwa [hchar] at hs
    | some u =>
      rw [feed] at h
      split_ifs at h with hlow
      have hs := (ih h nofun).cons (c := pairChar u v)
      rwa [encodeChar_pair (hheld u rfl) hlow] at hs

theorem feed_eq_iff {s : Str} : feed none s = some none ↔ WellFormed s :=
  ⟨fun h => wellFormed_of_feed h nofun, feed_wellFormed⟩

/-- Before the half of a character that is held back, the text is well-formed. -/
theorem feed_held {s : Str} {u : UInt16} (h : feed none s = some (some u)) :
    WellFormed s.dropLast := by
  rcases List.eq_nil_or_concat s with rfl | ⟨init, v, rfl⟩
  · cases h
  · rw [List.concat_eq_append, feed_append] at h
    obtain ⟨held, hinit, hlast⟩ := Option.bind_eq_some_iff.mp h
    rw [List.concat_eq_append, List.dropLast_concat]
    cases held with
    | none => exact feed_eq_iff.mp hinit
    | some w =>
      rw [feed] at hlast
      split_ifs at hlast
      cases hlast

theorem WellFormed.append_iff {s t : Str} (hs : WellFormed s) :
    WellFormed (s ++ t) ↔ WellFormed t := by
  rw [← feed_eq_iff, feed_append, feed_wellFormed hs, Option.bind_some, feed_eq_iff]

end NetServices.Utf16
