import NetServices.Utf16
import Mathlib.Tactic.Common
import Mathlib.Data.Nat.Notation

set_option autoImplicit false

/-!
# UTF-8 bytes

`decode` reads bytes one at a time, as a replacing decoder does: every maximal
ill-formed part becomes one U+FFFD, and the byte that ends such a part is read
again from the start. Encoding is the core `String.utf8EncodeChar`.
-/
namespace NetServices.Utf8
open Utf16 (replacement)

def encode (cs : List Char) : List UInt8 := cs.flatMap String.utf8EncodeChar

/-- A character cut by the bytes read so far: its bits, the bytes still needed
    and the range in which the next one has to lie. -/
structure Pending where
  bits : ℕ
  need : ℕ
  lo : ℕ
  hi : ℕ
deriving DecidableEq

inductive Lead where
  | ascii (c : Char)
  | multi (p : Pending)
  | invalid

/-- The first byte of a character. `C0`, `C1` and `F5` to `FF` begin none. -/
def lead (b : UInt8) : Lead :=
  let n := b.toNat
  if n < 0x80 then .ascii (Char.ofNat n)
  else if n < 0xC2 then .invalid
  else if n < 0xE0 then .multi ⟨n % 0x20, 1, 0x80, 0xBF⟩
  else if n < 0xF0 then
    .multi ⟨n % 0x10, 2, if n = 0xE0 then 0xA0 else 0x80, if n = 0xED then 0x9F else 0xBF⟩
  else if n < 0xF5 then
    .multi ⟨n % 0x08, 3, if n = 0xF0 then 0x90 else 0x80, if n = 0xF4 then 0x8F else 0xBF⟩
  else .invalid

def Pending.next (p : Pending) (b : UInt8) : Pending :=
  ⟨p.bits * 0x40 + b.toNat % 0x40, p.need - 1, 0x80, 0xBF⟩

/-- A byte read at the start of a character. -/
def start (b : UInt8) : List Char × Option Pending :=
  match lead b with
  | .ascii c => ([c], none)
  | .multi p => ([], some p)
  | .invalid => ([replacement], none)

/-- One byte: the characters it completes, and what is cut after it. -/
def step : Option Pending → UInt8 → List Char × Option Pending
  | none, b => start b
  | some p, b =>
    if p.lo ≤ b.toNat ∧ b.toNat ≤ p.hi then
      if p.need ≤ 1 then ([Char.ofNat (p.next b).bits], none) else ([], some (p.next b))
    else (replacement :: (start b).1, (start b).2)

def decodeFrom : Option Pending → List UInt8 → List Char
  | none, [] => []
  | some _, [] => [replacement]
  | q, b :: bs => (step q b).1 ++ decodeFrom (step q b).2 bs

def decode (bs : List UInt8) : List Char := decodeFrom none bs

/-- Bytes that are the encoding of some text. -/
def WellFormed (bs : List UInt8) : Prop := ∃ cs, bs = encode cs

theorem decodeFrom_cons (q : Option Pending) (b : UInt8) (bs : List UInt8) :
    decodeFrom q (b :: bs) = (step q b).1 ++ decodeFrom (step q b).2 bs := by
  cases q <;> rfl

theorem toNat_ofNat_of_lt {n : ℕ} (h : n < 0x100) : (UInt8.ofNat n).toNat = n := by
  rw [UInt8.toNat_ofNat']
  exact Nat.mod_eq_of_lt h

theorem next_eq {p : Pending} {b : UInt8} {n : ℕ} (hb : b.toNat = n) :
    p.next b = ⟨p.bits * 0x40 + n % 0x40, p.need - 1, 0x80, 0xBF⟩ := by
  subst hb
  rfl

/-- A continuation byte that fits carries its six bits over. -/
theorem step_inner {p : Pending} {n : ℕ} (hn : n < 0x100) (hlo : p.lo ≤ n) (hhi : n ≤ p.hi)
    (hneed : 1 < p.need) : step (some p) (UInt8.ofNat n) =
      ([], some ⟨p.bits * 0x40 + n % 0x40, p.need - 1, 0x80, 0xBF⟩) := by
  have hb := toNat_ofNat_of_lt hn
  have hr : p.lo ≤ (UInt8.ofNat n).toNat ∧ (UInt8.ofNat n).toNat ≤ p.hi := by
    rw [hb]
    exact ⟨hlo, hhi⟩
  rw [← next_eq hb]
  exact (if_pos hr).trans (if_neg (Nat.not_le.mpr hneed))

theorem step_last {p : Pending} {n : ℕ} (hn : n < 0x100) (hlo : p.lo ≤ n) (hhi : n ≤ p.hi)
    (hneed : p.need ≤ 1) : step (some p) (UInt8.ofNat n) =
      ([Char.ofNat (p.bits * 0x40 + n % 0x40)], none) := by
  have hb := toNat_ofNat_of_lt hn
  have hr : p.lo ≤ (UInt8.ofNat n).toNat ∧ (UInt8.ofNat n).toNat ≤ p.hi := by
    rw [hb]
    exact ⟨hlo, hhi⟩
  have hbits : (p.next (UInt8.ofNat n)).bits = p.bits * 0x40 + n % 0x40 :=
    congrArg Pending.bits (next_eq hb)
  rw [← hbits]
  exact (if_pos hr).trans (if_pos hneed)

theorem lead_ascii {n : ℕ} (h : n < 0x80) : lead (UInt8.ofNat n) = .ascii (Char.ofNat n) := by
  have hb := toNat_ofNat_of_lt (n := n) (by omega)
  simp [lead, hb, h]

theorem lead_two {n : ℕ} (h : 0xC2 ≤ n) (h' : n < 0xE0) :
    lead (UInt8.ofNat n) = .multi ⟨n % 0x20, 1, 0x80, 0xBF⟩ := by
  have hb := toNat_ofNat_of_lt (n := n) (by omega)
  have h1 : ¬ n < 0x80 := by omega
  have h2 : ¬ n < 0xC2 := by omega
  simp [lead, hb, h1, h2, h']

theorem lead_three {n : ℕ} (h : 0xE0 ≤ n) (h' : n < 0xF0) : lead (UInt8.ofNat n) =
    .multi ⟨n % 0x10, 2, if n = 0xE0 then 0xA0 else 0x80, if n = 0xED then 0x9F else 0xBF⟩ := by
  have hb := toNat_ofNat_of_lt (n := n) (by omega)
  have h1 : ¬ n < 0x80 := by omega
  have h2 : ¬ n < 0xC2 := by omega
  have h3 : ¬ n < 0xE0 := by omega
  simp only [lead, hb]
  rw [if_neg h1, if_neg h2, if_neg h3, if_pos h']

theorem lead_four {n : ℕ} (h : 0xF0 ≤ n) (h' : n < 0xF5) : lead (UInt8.ofNat n) =
    .multi ⟨n % 0x08, 3, if n = 0xF0 then 0x90 else 0x80, if n = 0xF4 then 0x8F else 0xBF⟩ := by
  have hb := toNat_ofNat_of_lt (n := n) (by omega)
  have h1 : ¬ n < 0x80 := by omega
  have h2 : ¬ n < 0xC2 := by omega
  have h3 : ¬ n < 0xE0 := by omega
  have h4 : ¬ n < 0xF0 := by omega
  simp only [lead, hb]
  rw [if_neg h1, if_neg h2, if_neg h3, if_neg h4, if_pos h']

theorem step_lead {b : UInt8} {p : Pending} (h : lead b = .multi p) :
    step none b = ([], some p) := by
  simp [step, start, h]

theorem encodeChar_one {c : Char} (h : c.toNat ≤ 0x7F) :
    String.utf8EncodeChar c = [UInt8.ofNat c.toNat] := if_pos h

theorem encodeChar_two {c : Char} (h : ¬ c.toNat ≤ 0x7F) (h' : c.toNat ≤ 0x7FF) :
    String.utf8EncodeChar c =
      [UInt8.ofNat (c.toNat / 64 % 0x20 + 0xC0), UInt8.ofNat (c.toNat % 0x40 + 0x80)] :=
  (if_neg h).trans (if_pos h')

theorem encodeChar_three {c : Char} (h : ¬ c.toNat ≤ 0x7F) (h' : ¬ c.toNat ≤ 0x7FF)
    (h'' : c.toNat ≤ 0xFFFF) : String.utf8EncodeChar c =
      [UInt8.ofNat (c.toNat / 4096 % 0x10 + 0xE0), UInt8.ofNat (c.toNat / 64 % 0x40 + 0x80),
        UInt8.ofNat (c.toNat % 0x40 + 0x80)] :=
  ((if_neg h).trans (if_neg h')).trans (if_pos h'')

theorem encodeChar_four {c : Char} (h : ¬ c.toNat ≤ 0x7F) (h' : ¬ c.toNat ≤ 0x7FF)
    (h'' : ¬ c.toNat ≤ 0xFFFF) : String.utf8EncodeChar c =
      [UInt8.ofNat (c.toNat / 262144 % 0x08 + 0xF0), UInt8.ofNat (c.toNat / 4096 % 0x40 + 0x80),
        UInt8.ofNat (c.toNat / 64 % 0x40 + 0x80), UInt8.ofNat (c.toNat % 0x40 + 0x80)] :=
  ((if_neg h).trans (if_neg h')).trans (if_neg h'')

theorem decode_one {c : Char} (bs : List UInt8) (h : c.toNat ≤ 0x7F) :
    decode (String.utf8EncodeChar c ++ bs) = c :: decode bs := by
  have hs : step none (UInt8.ofNat c.toNat) = ([c], none) := by
    simp [step, start, lead_ascii (show c.toNat < 0x80 by omega)]
  simp only [decode, encodeChar_one h, List.singleton_append, decodeFrom_cons, hs]

theorem decode_two {c : Char} (bs : List UInt8) (h : ¬ c.toNat ≤ 0x7F) (h' : c.toNat ≤ 0x7FF) :
    decode (String.utf8EncodeChar c ++ bs) = c :: decode bs := by
  have h1 := step_lead (lead_two (n := c.toNat / 64 % 0x20 + 0xC0) (by omega) (by omega))
  have h2 := step_last (p := ⟨(c.toNat / 64 % 0x20 + 0xC0) % 0x20, 1, 0x80, 0xBF⟩)
    (n := c.toNat % 0x40 + 0x80) (by omega) (by dsimp only; omega) (by dsimp only; omega)
    (Nat.le_refl 1)
  have hn : (c.toNat / 64 % 0x20 + 0xC0) % 0x20 * 0x40 + (c.toNat % 0x40 + 0x80) % 0x40 =
      c.toNat := by omega
  rw [hn, Char.ofNat_toNat] at h2
  simp only [decode, encodeChar_two h h', List.cons_append, List.nil_append, decodeFrom_cons, h1, h2]

theorem decode_three {c : Char} (bs : List UInt8) (h : ¬ c.toNat ≤ 0x7F) (h' : ¬ c.toNat ≤ 0x7FF)
    (h'' : c.toNat ≤ 0xFFFF) : decode (String.utf8EncodeChar c ++ bs) = c :: decode bs := by
  have hc := Utf16.char_range c
  have h1 := step_lead (lead_three (n := c.toNat / 4096 % 0x10 + 0xE0) (by omega) (by omega))
  generalize hlo : (if c.toNat / 4096 % 0x10 + 0xE0 = 0xE0 then 0xA0 else 0x80) = lo at h1
  generalize hhi : (if c.toNat / 4096 % 0x10 + 0xE0 = 0xED then 0x9F else 0xBF) = hi at h1
  -- overlong forms and surrogates are excluded by the range of the second byte
  have h2 := step_inner (p := ⟨(c.toNat / 4096 % 0x10 + 0xE0) % 0x10, 2, lo, hi⟩)
    (n := c.toNat / 64 % 0x40 + 0x80) (by omega) (by dsimp only; subst hlo; split_ifs <;> omega)
    (by dsimp only; subst hhi; split_ifs <;> omega) Nat.one_lt_two
  dsimp only at h2
  have h3 := step_last (n := c.toNat % 0x40 + 0x80)
    (p := ⟨(c.toNat / 4096 % 0x10 + 0xE0) % 0x10 * 0x40 + (c.toNat / 64 % 0x40 + 0x80) % 0x40,
      2 - 1, 0x80, 0xBF⟩) (by omega) (by dsimp only; omega) (by dsimp only; omega) (Nat.le_refl 1)
  have hn : ((c.toNat / 4096 % 0x10 + 0xE0) % 0x10 * 0x40 +
      (c.toNat / 64 % 0x40 + 0x80) % 0x40) * 0x40 + (c.toNat % 0x40 + 0x80) % 0x40 = c.toNat := by
    omega
  rw [hn, Char.ofNat_toNat] at h3
  simp only [decode, encodeChar_three h h' h'', List.cons_append, List.nil_append, decodeFrom_cons,
    h1, h2, h3]

theorem decode_four {c : Char} (bs : List UInt8) (h : ¬ c.toNat ≤ 0x7F) (h' : ¬ c.toNat ≤ 0x7FF)
    (h'' : ¬ c.toNat ≤ 0xFFFF) : decode (String.utf8EncodeChar c ++ bs) = c :: decode bs := by
  have hc := Utf16.char_range c
  have h1 := step_lead (lead_four (n := c.toNat / 262144 % 0x08 + 0xF0) (by omega) (by omega))
  generalize hlo : (if c.toNat / 262144 % 0x08 + 0xF0 = 0xF0 then 0x90 else 0x80) = lo at h1
  generalize hhi : (if c.toNat / 262144 % 0x08 + 0xF0 = 0xF4 then 0x8F else 0xBF) = hi at h1
  have h2 := step_inner (p := ⟨(c.toNat / 262144 % 0x08 + 0xF0) % 0x08, 3, lo, hi⟩)
    (n := c.toNat / 4096 % 0x40 + 0x80) (by omega) (by dsimp only; subst hlo; split_ifs <;> omega)
    (by dsimp only; subst hhi; split_ifs <;> omega) (by dsimp only; omega)
  dsimp only at h2
  have h3 := step_inner (n := c.toNat / 64 % 0x40 + 0x80)
    (p := ⟨(c.toNat / 262144 % 0x08 + 0xF0) % 0x08 * 0x40 + (c.toNat / 4096 % 0x40 + 0x80) % 0x40,
      3 - 1, 0x80, 0xBF⟩) (by omega) (by dsimp only; omega) (by dsimp only; omega) Nat.one_lt_two
  dsimp only at h3
  have h4 := step_last (n := c.toNat % 0x40 + 0x80)
    (p := ⟨((c.toNat / 262144 % 0x08 + 0xF0) % 0x08 * 0x40 +
      (c.toNat / 4096 % 0x40 + 0x80) % 0x40) * 0x40 + (c.toNat / 64 % 0x40 + 0x80) % 0x40,
      3 - 1 - 1, 0x80, 0xBF⟩) (by omega) (by dsimp only; omega) (by dsimp only; omega) (Nat.le_refl 1)
  have hn : (((c.toNat / 262144 % 0x08 + 0xF0) % 0x08 * 0x40 +
      (c.toNat / 4096 % 0x40 + 0x80) % 0x40) * 0x40 + (c.toNat / 64 % 0x40 + 0x80) % 0x40) * 0x40 +
      (c.toNat % 0x40 + 0x80) % 0x40 = c.toNat := by omega
  rw [hn, Char.ofNat_toNat] at h4
  simp only [decode, encodeChar_four h h' h'', List.cons_append, List.nil_append, decodeFrom_cons,
    h1, h2, h3, h4]

theorem decode_encodeChar_append (c : Char) (bs : List UInt8) :
    decode (String.utf8EncodeChar c ++ bs) = c :: decode bs := by
  by_cases h1 : c.toNat ≤ 0x7F
  · exact decode_one bs h1
  by_cases h2 : c.toNat ≤ 0x7FF
  · exact decode_two bs h1 h2
  by_cases h3 : c.toNat ≤ 0xFFFF
  · exact decode_three bs h1 h2 h3
  exact decode_four bs h1 h2 h3

theorem decode_encode_append (cs : List Char) (bs : List UInt8) :
    decode (encode cs ++ bs) = cs ++ decode bs := by
  induction cs with
  | nil => rfl
  | cons c cs ih =>
    change decode (String.utf8EncodeChar c ++ encode cs ++ bs) = _
    rw [List.append_assoc, decode_encodeChar_append, ih, List.cons_append]

theorem decode_encode (cs : List Char) : decode (encode cs) = cs := by
  simpa [decode, decodeFrom] using decode_encode_append cs []

theorem encode_decode {bs : List UInt8} (h : WellFormed bs) : encode (decode bs) = bs := by
  obtain ⟨cs, rfl⟩ := h
  rw [decode_encode]

theorem encode_append (cs ds : List Char) : encode (cs ++ ds) = encode cs ++ encode ds := by
  simp [encode]

theorem decode_append {bs : List UInt8} (h : WellFormed bs) (bs' : List UInt8) :
    decode (bs ++ bs') = decode bs ++ decode bs' := by
  obtain ⟨cs, rfl⟩ := h
  rw [decode_encode_append, decode_encode]

/-- Bytes below 0x80 are characters. -/
theorem wellFormed_ascii {bs : List UInt8} (h : ∀ b ∈ bs, b.toNat < 0x80) : WellFormed bs := by
  induction bs with
  | nil => exact ⟨[], rfl⟩
  | cons b bs ih =>
    obtain ⟨cs, rfl⟩ := ih fun b' hb' => h b' (List.mem_cons_of_mem b hb')
    have hb := h b List.mem_cons_self
    have hc : (Char.ofNat b.toNat).toNat = b.toNat := Utf16.toNat_charOfNat (.inl (by omega))
    refine ⟨Char.ofNat b.toNat :: cs, ?_⟩
    have hencode : String.utf8EncodeChar (Char.ofNat b.toNat) = [b] := by
      rw [encodeChar_one (by omega), hc, UInt8.ofNat_toNat]
    change b :: encode cs = String.utf8EncodeChar (Char.ofNat b.toNat) ++ encode cs
    rw [hencode, List.singleton_append]

end NetServices.Utf8
