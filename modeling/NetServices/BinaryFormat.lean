import Mathlib.Tactic.Common
import Mathlib.Data.Nat.Notation
import Mathlib.Data.Int.Notation

set_option autoImplicit false

/-!
# Binary values on a stream

Integers of 7 bits a byte, 32-bit integers and blocks of bytes, written and read
back. A program that reads takes the bytes that have come so far and whether the
stream ends after them. As long as the stream goes on it can be blocked, and
what has come stays on the stream.
-/
namespace NetServices.BinaryFormat

inductive Failure where
  | endOfStream
  | format
  | io
  | argumentOutOfRange
  | argument
  | unauthorizedAccess
deriving DecidableEq

inductive Outcome (α : Type) where
  | done (a : α) (rest : List UInt8)
  | blocked
  | raised (e : Failure)

/-- A program that reads, given whether the stream has been closed. -/
def Reading (α : Type) := Bool → List UInt8 → Outcome α

instance : Monad Reading where
  pure a := fun _ bytes => .done a bytes
  bind m f := fun closed bytes =>
    match m closed bytes with
    | .done a rest => f a closed rest
    | .blocked => .blocked
    | .raised e => .raised e

def raise {α : Type} (e : Failure) : Reading α := fun _ _ => .raised e

def readByte : Reading UInt8 := fun closed bytes =>
  match bytes with
  | [] => if closed then .raised .endOfStream else .blocked
  | b :: rest => .done b rest

/-- Exactly `count` bytes. -/
def readExactly (count : ℕ) : Reading (List UInt8) := fun closed bytes =>
  if count ≤ bytes.length then .done (bytes.take count) (bytes.drop count)
  else if closed then .raised .endOfStream else .blocked

/-- Up to `count` bytes: fewer at the end of the stream. -/
def readUpTo (count : ℕ) : Reading (List UInt8) := fun closed bytes =>
  if count ≤ bytes.length then .done (bytes.take count) (bytes.drop count)
  else if closed then .done bytes [] else .blocked

/-- The unsigned value of 32 bits as a signed one. -/
def toInt32 (n : ℕ) : ℤ := if n < 0x80000000 then n else n - 0x100000000

def write7BitEncodedInt : ℕ → ℕ → List UInt8
  | 0, _ => []
  | fuel + 1, n =>
    if n < 0x80 then [UInt8.ofNat n]
    else UInt8.ofNat (n % 0x80 + 0x80) :: write7BitEncodedInt fuel (n / 0x80)

/-- Up to `more` bytes that are followed by another one, and a last one of four bits. -/
def read7Bits : ℕ → Reading ℕ
  | 0 => do
    let b ← readByte
    if 15 < b.toNat then raise .format else pure b.toNat
  | more + 1 => do
    let b ← readByte
    if b.toNat < 0x80 then pure b.toNat
    else
      let high ← read7Bits more
      pure (b.toNat % 0x80 + 0x80 * high)

def read7BitEncodedInt : Reading ℤ := do
  let n ← read7Bits 4
  pure (toInt32 n)

def writeInt32 (n : ℕ) : List UInt8 :=
  [UInt8.ofNat (n % 0x100), UInt8.ofNat (n / 0x100 % 0x100), UInt8.ofNat (n / 0x10000 % 0x100),
    UInt8.ofNat (n / 0x1000000 % 0x100)]

def readInt32 : Reading ℤ := do
  let bytes ← readExactly 4
  pure (toInt32 (bytes.foldr (fun b n => b.toNat + 0x100 * n) 0))

/-- `ReadBytes`. -/
def readBytes (count : ℤ) : Reading (List UInt8) :=
  if count < 0 then raise .argumentOutOfRange else readUpTo count.toNat

variable {α β : Type}

@[simp] theorem pure_run (a : α) (closed : Bool) (bytes : List UInt8) :
    (pure a : Reading α) closed bytes = .done a bytes := rfl

theorem bind_run (m : Reading α) (f : α → Reading β) (closed : Bool) (bytes : List UInt8) :
    (m >>= f) closed bytes = match m closed bytes with
      | .done a rest => f a closed rest
      | .blocked => .blocked
      | .raised e => .raised e := rfl

/-- The program takes `bytes` from the front of every stream and gives `a`. -/
def Reads (m : Reading α) (bytes : List UInt8) (a : α) : Prop :=
  ∀ closed rest, m closed (bytes ++ rest) = .done a rest

theorem Reads.pure (a : α) : Reads (Pure.pure a) [] a := fun _ _ => rfl

theorem Reads.bind {m : Reading α} {f : α → Reading β} {bytes bytes' : List UInt8} {a : α} {b : β}
    (hm : Reads m bytes a) (hf : Reads (f a) bytes' b) : Reads (m >>= f) (bytes ++ bytes') b := by
  intro closed rest
  rw [List.append_assoc, bind_run, hm]
  exact hf closed rest

theorem Reads.map {m : Reading α} {bytes : List UInt8} {a : α} (hm : Reads m bytes a) (f : α → β) :
    Reads (m >>= fun a => Pure.pure (f a)) bytes (f a) := by
  intro closed rest
  rw [bind_run, hm]
  rfl

theorem readByte_reads (b : UInt8) : Reads readByte [b] b := fun _ _ => rfl

theorem readExactly_reads (bytes : List UInt8) : Reads (readExactly bytes.length) bytes bytes := by
  intro closed rest
  rw [readExactly, if_pos (List.prefix_append bytes rest).length_le, List.take_left, List.drop_left]

theorem readBytes_reads (bytes : List UInt8) : Reads (readBytes bytes.length) bytes bytes := by
  intro closed rest
  rw [readBytes, if_neg (Int.not_lt.mpr (Int.natCast_nonneg _)), Int.toNat_natCast, readUpTo,
    if_pos (List.prefix_append bytes rest).length_le, List.take_left, List.drop_left]

/-- On an open stream of such bytes the program waits for more, or takes at least
    `least` of them. -/
def Keeps (Q : UInt8 → Prop) (least : ℕ) (m : Reading α) (P : α → Prop) : Prop :=
  ∀ bytes, (∀ b ∈ bytes, Q b) → m false bytes = .blocked ∨ ∃ a rest,
    m false bytes = .done a rest ∧ rest <:+ bytes ∧ rest.length + least ≤ bytes.length ∧ P a

variable {Q : UInt8 → Prop} {P : α → Prop}

theorem Keeps.pure {a : α} (h : P a) : Keeps Q 0 (Pure.pure a) P :=
  fun bytes _ => .inr ⟨a, bytes, rfl, List.suffix_rfl, Nat.le_refl _, h⟩

theorem Keeps.bind {least least' : ℕ} {m : Reading α} {f : α → Reading β} {P' : β → Prop}
    (hm : Keeps Q least m P) (hf : ∀ a, P a → Keeps Q least' (f a) P') :
    Keeps Q (least' + least) (m >>= f) P' := by
  intro bytes hbytes
  rw [bind_run]
  rcases hm bytes hbytes with hblocked | ⟨a, rest, hdone, hsuffix, hle, ha⟩
  · rw [hblocked]
    exact .inl rfl
  · rw [hdone]
    rcases hf a ha rest (fun b hb => hbytes b (hsuffix.subset hb)) with
      hblocked | ⟨b, rest', hdone', hsuffix', hle', hb⟩
    · exact .inl hblocked
    · exact .inr ⟨b, rest', hdone', hsuffix'.trans hsuffix, by omega, hb⟩

theorem Keeps.mono {least least' : ℕ} {m : Reading α} (h : Keeps Q least m P)
    (hle : least' ≤ least) : Keeps Q least' m P := by
  intro bytes hbytes
  rcases h bytes hbytes with hblocked | ⟨a, rest, hdone, hsuffix, hlength, ha⟩
  · exact .inl hblocked
  · exact .inr ⟨a, rest, hdone, hsuffix, Nat.le_trans (Nat.add_le_add_left hle _) hlength, ha⟩

theorem readByte_keeps : Keeps Q 1 readByte Q := by
  intro bytes hbytes
  cases bytes with
  | nil => exact .inl rfl
  | cons b rest => exact .inr ⟨b, rest, rfl, List.suffix_cons b rest, Nat.le_refl _,
      hbytes b List.mem_cons_self⟩

theorem readExactly_keeps (count : ℕ) :
    Keeps Q count (readExactly count) fun bytes => bytes.length = count ∧ ∀ b ∈ bytes, Q b := by
  intro bytes hbytes
  rw [readExactly]
  by_cases hcount : count ≤ bytes.length
  · rw [if_pos hcount]
    refine .inr ⟨_, _, rfl, List.drop_suffix _ _, ?_, List.length_take_of_le hcount,
      fun b hb => hbytes b (List.mem_of_mem_take hb)⟩
    exact Nat.le_of_eq (by rw [List.length_drop, Nat.sub_add_cancel hcount])
  · rw [if_neg hcount]
    exact .inl rfl

theorem readUpTo_keeps (count : ℕ) : Keeps Q 0 (readUpTo count) fun _ => True := by
  intro bytes _
  rw [readUpTo]
  by_cases hcount : count ≤ bytes.length
  · rw [if_pos hcount]
    exact .inr ⟨_, _, rfl, List.drop_suffix _ _, (List.drop_suffix _ _).length_le, trivial⟩
  · rw [if_neg hcount]
    exact .inl rfl

theorem toNat_ofNat_of_lt {n : ℕ} (h : n < 0x100) : (UInt8.ofNat n).toNat = n := by
  rw [UInt8.toNat_ofNat']
  exact Nat.mod_eq_of_lt h

/-- What `more` groups of 7 bits and one of 4 can hold. -/
def capacity : ℕ → ℕ
  | 0 => 0x10
  | more + 1 => 0x80 * capacity more

theorem read7Bits_reads (more fuel n : ℕ) (hmore : n < capacity more) (hfuel : more < fuel) :
    Reads (read7Bits more) (write7BitEncodedInt fuel n) n := by
  induction more generalizing fuel n with
  | zero =>
    obtain ⟨fuel, rfl⟩ := Nat.exists_eq_succ_of_ne_zero (Nat.ne_zero_of_lt hfuel)
    have hn : n < 0x10 := hmore
    rw [write7BitEncodedInt, if_pos (by omega)]
    intro closed rest
    have hb := toNat_ofNat_of_lt (n := n) (by omega)
    rw [read7Bits, bind_run, readByte_reads]
    simp only [hb]
    rw [if_neg (by omega)]
    rfl
  | succ more ih =>
    obtain ⟨fuel, rfl⟩ := Nat.exists_eq_succ_of_ne_zero (Nat.ne_zero_of_lt hfuel)
    rw [Nat.succ_eq_add_one, write7BitEncodedInt]
    split_ifs with hsmall
    · intro closed rest
      have hb := toNat_ofNat_of_lt (n := n) (by omega)
      rw [read7Bits, bind_run, readByte_reads]
      simp only [hb]
      rw [if_pos hsmall]
      rfl
    · intro closed rest
      have hb := toNat_ofNat_of_lt (n := n % 0x80 + 0x80) (by omega)
      have hn : n < 0x80 * capacity more := hmore
      have hhigh := ih fuel (n / 0x80) (by omega) (by omega)
      have hfirst := readByte_reads (UInt8.ofNat (n % 0x80 + 0x80)) closed
        (write7BitEncodedInt fuel (n / 0x80) ++ rest)
      rw [read7Bits, bind_run, List.cons_append]
      rw [List.singleton_append] at hfirst
      rw [hfirst]
      simp only [hb]
      rw [if_neg (by omega), bind_run, hhigh]
      simp only [pure_run, Outcome.done.injEq, and_true]
      omega

theorem toInt32_of_lt {n : ℕ} (h : n < 0x80000000) : toInt32 n = n := if_pos h

theorem read7BitEncodedInt_reads {n : ℕ} (h : n < 0x80000000) :
    Reads read7BitEncodedInt (write7BitEncodedInt 5 n) (n : ℤ) := by
  rw [← toInt32_of_lt h]
  exact (read7Bits_reads 4 5 n (Nat.lt_trans h (by decide)) (by decide)).map toInt32

theorem readInt32_reads {n : ℕ} (h : n < 0x80000000) : Reads readInt32 (writeInt32 n) (n : ℤ) := by
  have hvalue : (writeInt32 n).foldr (fun b n => b.toNat + 0x100 * n) 0 = n := by
    simp only [writeInt32, List.foldr_cons, List.foldr_nil, UInt8.toNat_ofNat']
    omega
  have hread := (readExactly_reads (writeInt32 n)).map
    fun bytes => toInt32 (bytes.foldr (fun b n => b.toNat + 0x100 * n) 0)
  rw [hvalue, toInt32_of_lt h] at hread
  exact hread

/-- The program takes at least so many bytes, if it gives something. -/
def Takes (least : ℕ) (m : Reading α) : Prop :=
  ∀ closed bytes a rest, m closed bytes = .done a rest → rest.length + least ≤ bytes.length

theorem Takes.pure (a : α) : Takes 0 (Pure.pure a : Reading α) := by
  intro closed bytes a rest h
  cases h
  exact Nat.le_refl _

theorem Takes.raise (least : ℕ) (e : Failure) : Takes least (raise e : Reading α) := by
  intro closed bytes a rest h
  cases h

theorem Takes.bind {least least' : ℕ} {m : Reading α} {f : α → Reading β} (hm : Takes least m)
    (hf : ∀ a, Takes least' (f a)) : Takes (least + least') (m >>= f) := by
  intro closed bytes b rest h
  rw [bind_run] at h
  cases hrun : m closed bytes with
  | done a rest' =>
    rw [hrun] at h
    have hfirst := hm closed bytes a rest' hrun
    have hsecond := hf a closed rest' b rest h
    omega
  | blocked =>
    rw [hrun] at h
    cases h
  | raised e =>
    rw [hrun] at h
    cases h

theorem readByte_takes : Takes 1 readByte := by
  intro closed bytes a rest h
  cases bytes with
  | nil => cases closed <;> cases h
  | cons b bytes =>
    cases h
    exact Nat.le_refl _

theorem readExactly_takes (count : ℕ) : Takes count (readExactly count) := by
  intro closed bytes a rest h
  rw [readExactly] at h
  split_ifs at h with hcount
  cases h
  exact Nat.le_of_eq (by rw [List.length_drop, Nat.sub_add_cancel hcount])

theorem readUpTo_takes (count : ℕ) : Takes 0 (readUpTo count) := by
  intro closed bytes a rest h
  rw [readUpTo] at h
  split_ifs at h
  · cases h
    exact (List.drop_suffix _ _).length_le
  · cases h
    exact Nat.zero_le _

theorem readBytes_takes (count : ℤ) : Takes 0 (readBytes count) := by
  rw [readBytes]
  split_ifs
  · exact .raise 0 _
  · exact readUpTo_takes _

theorem readInt32_takes : Takes 4 readInt32 := (readExactly_takes 4).bind fun _ => .pure _

theorem read7Bits_takes (more : ℕ) : Takes 1 (read7Bits more) := by
  induction more with
  | zero =>
    change Takes (1 + 0) (read7Bits 0)
    refine readByte_takes.bind fun b => ?_
    split_ifs
    · exact .raise 0 _
    · exact .pure _
  | succ more ih =>
    change Takes (1 + 0) (read7Bits (more + 1))
    refine readByte_takes.bind fun b => ?_
    split_ifs
    · exact .pure _
    · intro closed bytes a rest h
      have hrest := (ih.bind fun _ => .pure _) closed bytes a rest h
      omega

theorem read7BitEncodedInt_takes : Takes 1 read7BitEncodedInt :=
  (read7Bits_takes 4).bind fun _ => .pure _

/-- Of what is cut, the first part is not whole, or only the second. -/
theorem prefix_append_cases {bytes bytes' cut : List UInt8} (h : cut <+: bytes ++ bytes') :
    cut <+: bytes ∧ cut ≠ bytes ∨ ∃ rest, rest <+: bytes' ∧ cut = bytes ++ rest := by
  rcases List.prefix_or_prefix_of_prefix h (List.prefix_append bytes bytes') with
    hcut | ⟨rest, rfl⟩
  · by_cases hwhole : cut = bytes
    · exact .inr ⟨[], List.nil_prefix, by rw [hwhole, List.append_nil]⟩
    · exact .inl ⟨hcut, hwhole⟩
  · exact .inr ⟨rest, (List.prefix_append_right_inj bytes).mp h, rfl⟩

/-- The program raises on a closed stream that is cut before all of the bytes. -/
def NeedsAll (m : Reading α) (bytes : List UInt8) : Prop :=
  ∀ cut, cut <+: bytes → cut ≠ bytes → m true cut = .raised .endOfStream

theorem NeedsAll.bind_left {m : Reading α} {bytes : List UInt8} (hm : NeedsAll m bytes)
    (f : α → Reading β) : NeedsAll (m >>= f) bytes := by
  intro cut hcut hne
  rw [bind_run, hm cut hcut hne]

theorem NeedsAll.bind {m : Reading α} {f : α → Reading β} {bytes bytes' : List UInt8} {a : α}
    (hm : NeedsAll m bytes) (hreads : Reads m bytes a) (hf : NeedsAll (f a) bytes') :
    NeedsAll (m >>= f) (bytes ++ bytes') := by
  intro cut hcut hne
  rcases prefix_append_cases hcut with ⟨hcut, hne⟩ | ⟨rest, hrest, rfl⟩
  · exact hm.bind_left f cut hcut hne
  · rw [bind_run, hreads]
    exact hf rest hrest fun hwhole => hne (congrArg (bytes ++ ·) hwhole)

theorem readByte_needsAll (b : UInt8) : NeedsAll readByte [b] := by
  intro cut hcut hne
  rcases List.prefix_cons_iff.mp hcut with rfl | ⟨rest, rfl, hrest⟩
  · rfl
  · exact absurd (congrArg (b :: ·) (List.prefix_nil.mp hrest)) hne

theorem readExactly_needsAll (bytes : List UInt8) : NeedsAll (readExactly bytes.length) bytes := by
  intro cut hcut hne
  have hlt : ¬ bytes.length ≤ cut.length := fun hle => hne (hcut.eq_of_length_le hle)
  rw [readExactly, if_neg hlt]
  rfl

theorem read7Bits_needsAll (more fuel n : ℕ) (hmore : n < capacity more) (hfuel : more < fuel) :
    NeedsAll (read7Bits more) (write7BitEncodedInt fuel n) := by
  induction more generalizing fuel n with
  | zero =>
    obtain ⟨fuel, rfl⟩ := Nat.exists_eq_succ_of_ne_zero (Nat.ne_zero_of_lt hfuel)
    have hn : n < 0x10 := hmore
    rw [Nat.succ_eq_add_one, write7BitEncodedInt, if_pos (by omega), read7Bits]
    exact (readByte_needsAll _).bind_left _
  | succ more ih =>
    obtain ⟨fuel, rfl⟩ := Nat.exists_eq_succ_of_ne_zero (Nat.ne_zero_of_lt hfuel)
    rw [Nat.succ_eq_add_one, write7BitEncodedInt, read7Bits]
    split_ifs with hsmall
    · exact (readByte_needsAll _).bind_left _
    · have hb := toNat_ofNat_of_lt (n := n % 0x80 + 0x80) (by omega)
      have hn : n < 0x80 * capacity more := hmore
      refine (readByte_needsAll _).bind (readByte_reads _) ?_
      rw [hb, if_neg (by omega)]
      exact (ih fuel (n / 0x80) (by omega) (by omega)).bind_left _

theorem read7BitEncodedInt_needsAll {n : ℕ} (h : n < 0x80000000) :
    NeedsAll read7BitEncodedInt (write7BitEncodedInt 5 n) :=
  (read7Bits_needsAll 4 5 n (Nat.lt_trans h (by decide)) (by decide)).bind_left _

theorem readInt32_needsAll (n : ℕ) : NeedsAll readInt32 (writeInt32 n) :=
  (readExactly_needsAll (writeInt32 n)).bind_left _

/-- At the end of the stream `ReadBytes` gives what there is. -/
theorem readBytes_cut {bytes cut : List UInt8} (h : cut <+: bytes) :
    readBytes bytes.length true cut = .done cut [] := by
  rw [readBytes, if_neg (Int.not_lt.mpr (Int.natCast_nonneg _)), Int.toNat_natCast, readUpTo]
  by_cases hle : bytes.length ≤ cut.length
  · rw [if_pos hle, h.eq_of_length_le hle, List.take_length, List.drop_length]
  · rw [if_neg hle, if_pos rfl]

/-- The program does not see the end of a stream that goes on. -/
def Waits (m : Reading α) : Prop := ∀ bytes, m false bytes ≠ .raised .endOfStream

theorem Waits.pure (a : α) : Waits (Pure.pure a : Reading α) := fun _ h => nomatch h

theorem Waits.raise {e : Failure} (h : e ≠ .endOfStream) :
    Waits (BinaryFormat.raise e : Reading α) :=
  fun _ heq => h (Outcome.raised.inj heq)

theorem Waits.bind {m : Reading α} {f : α → Reading β} (hm : Waits m) (hf : ∀ a, Waits (f a)) :
    Waits (m >>= f) := by
  intro bytes
  have hfirst := hm bytes
  rw [bind_run]
  cases hrun : m false bytes with
  | done a rest => exact hf a rest
  | blocked => exact fun h => nomatch h
  | raised e =>
    rw [hrun] at hfirst
    exact fun h => hfirst (congrArg Outcome.raised (Outcome.raised.inj h))

theorem readByte_waits : Waits readByte := by
  intro bytes
  cases bytes with
  | nil => exact nofun
  | cons b rest => exact nofun

theorem readExactly_waits (count : ℕ) : Waits (readExactly count) := by
  intro bytes
  rw [readExactly, if_neg Bool.false_ne_true]
  split_ifs <;> exact nofun

theorem readBytes_waits (count : ℤ) : Waits (readBytes count) := by
  unfold readBytes
  split_ifs
  · exact .raise nofun
  · intro bytes
    rw [readUpTo, if_neg Bool.false_ne_true]
    split_ifs <;> exact nofun

theorem readInt32_waits : Waits readInt32 := (readExactly_waits 4).bind fun _ => .pure _

theorem read7Bits_waits (more : ℕ) : Waits (read7Bits more) := by
  induction more with
  | zero =>
    refine readByte_waits.bind fun b => ?_
    split_ifs
    · exact .raise nofun
    · exact .pure _
  | succ more ih =>
    refine readByte_waits.bind fun b => ?_
    split_ifs
    · exact .pure _
    · exact ih.bind fun _ => .pure _

theorem read7BitEncodedInt_waits : Waits read7BitEncodedInt :=
  (read7Bits_waits 4).bind fun _ => .pure _

end NetServices.BinaryFormat
