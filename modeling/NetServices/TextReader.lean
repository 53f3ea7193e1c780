import NetServices.Utf16

set_option autoImplicit false

/-!
# Reading lines and blocks of characters

A reader over the characters that are still to come, as the stream reader delivers
them: decoded, and without a byte order mark at the start of the stream. A line
ends at LF, CR or CRLF or at the end of the stream. `read` delivers at least one
character as long as there are any, and how many it delivers at most is part of the
reader, so that a result about every reader covers every way a stream can be split.
-/
namespace NetServices.TextReader
open Utf16 (Str)

structure Reader where
  chars : Str
  reads : List ℕ
deriving DecidableEq

def lf : UInt16 := 10
def cr : UInt16 := 13

def IsLine (s : Str) : Prop := lf ∉ s ∧ cr ∉ s

instance (s : Str) : Decidable (IsLine s) := inferInstanceAs (Decidable (_ ∧ _))

inductive Terminator where
  | lf
  | crlf
  | cr
deriving DecidableEq

def Terminator.text : Terminator → Str
  | .lf => [TextReader.lf]
  | .crlf => [TextReader.cr, TextReader.lf]
  | .cr => [TextReader.cr]

/-- What the platform puts at the end of a line. -/
def IsNewLine (s : Str) : Prop := s = Terminator.lf.text ∨ s = Terminator.crlf.text

theorem isNewLine_lf : IsNewLine [lf] := .inl rfl

/-- A lone CR is told apart from CRLF by what follows. -/
def Terminator.Apart (t : Terminator) (rest : Str) : Prop :=
  t = .cr → rest.head? ≠ some TextReader.lf

theorem Terminator.lf_apart (rest : Str) : Terminator.lf.Apart rest := nofun

theorem Terminator.Apart.append {t : Terminator} {s rest : Str} (h : t.Apart s)
    (hrest : rest.head? ≠ some TextReader.lf) : t.Apart (s ++ rest) := by
  intro ht
  cases s with
  | nil => exact hrest
  | cons c s => exact h ht

/-- A line with its end. -/
structure InputLine where
  text : Str
  ending : Terminator
  isLine : IsLine text

def InputLine.chars (line : InputLine) : Str := line.text ++ line.ending.text

/-- The first line and what follows its end. -/
def splitLine : Str → Str × Str
  | [] => ([], [])
  | c :: cs =>
    if c = lf then ([], cs)
    else if c = cr then ([], if cs.head? = some lf then cs.tail else cs)
    else (c :: (splitLine cs).1, (splitLine cs).2)

def Reader.readLine (r : Reader) : Option Str × Reader :=
  if r.chars = [] then (none, r)
  else (some (splitLine r.chars).1, { r with chars := (splitLine r.chars).2 })

def Reader.receive (text : Str) (r : Reader) : Reader := { r with chars := r.chars ++ text }

def Reader.read (count : ℕ) (r : Reader) : Str × Reader :=
  let size := min count (max 1 (r.reads.headD count))
  (r.chars.take size, ⟨r.chars.drop size, r.reads.tail⟩)

theorem splitLine_suffix (s : Str) : (splitLine s).2 <:+ s := by
  induction s with
  | nil => exact List.suffix_rfl
  | cons c cs ih =>
    rw [splitLine]
    split_ifs
    · exact List.suffix_cons c cs
    · exact (List.tail_suffix cs).trans (List.suffix_cons c cs)
    · exact List.suffix_cons c cs
    · exact ih.trans (List.suffix_cons c cs)

theorem splitLine_shorter {s : Str} (h : s ≠ []) : (splitLine s).2.length < s.length := by
  cases s with
  | nil => exact absurd rfl h
  | cons c cs =>
    rw [splitLine]
    split_ifs
    · exact Nat.lt_succ_self _
    · have ht := (List.tail_suffix cs).length_le
      exact Nat.lt_succ_of_le ht
    · exact Nat.lt_succ_self _
    · exact Nat.lt_succ_of_le (splitLine_suffix cs).length_le

theorem splitLine_line {l : Str} (hl : IsLine l) (t : Terminator) (rest : Str)
    (ht : t.Apart rest) : splitLine (l ++ (t.text ++ rest)) = (l, rest) := by
  induction l with
  | nil =>
    cases t with
    | lf => rfl
    | crlf => rfl
    | cr =>
      change ([], if rest.head? = some lf then rest.tail else rest) = ([], rest)
      rw [if_neg (ht rfl)]
  | cons c l ih =>
    obtain ⟨hlf, hcr⟩ := hl
    rw [List.mem_cons, not_or] at hlf hcr
    rw [List.cons_append, splitLine, if_neg (Ne.symm hlf.1), if_neg (Ne.symm hcr.1),
      ih ⟨hlf.2, hcr.2⟩]

theorem readLine_line {l : Str} (hl : IsLine l) (t : Terminator) (rest : Str) (reads : List ℕ)
    (ht : t.Apart rest) :
    Reader.readLine ⟨l ++ (t.text ++ rest), reads⟩ = (some l, ⟨rest, reads⟩) := by
  have hne : l ++ (t.text ++ rest) ≠ [] := by
    cases t <;> simp [Terminator.text]
  rw [Reader.readLine, if_neg hne, splitLine_line hl t rest ht]

/-- Nothing follows a line that is cut, or that has just ended. -/
theorem splitLine_cut {l : Str} (hl : IsLine l) (t : Terminator) {s : Str}
    (h : s <+: l ++ t.text) : (splitLine s).2 = [] := by
  induction l generalizing s with
  | nil =>
    rw [List.nil_append] at h
    cases t with
    | lf | cr =>
      rcases List.prefix_cons_iff.mp h with rfl | ⟨s', rfl, hs⟩
      · rfl
      · rw [List.prefix_nil.mp hs]
        rfl
    | crlf =>
      rcases List.prefix_cons_iff.mp h with rfl | ⟨s', rfl, hs⟩
      · rfl
      · rcases List.prefix_cons_iff.mp hs with rfl | ⟨s'', rfl, hs'⟩
        · rfl
        · rw [List.prefix_nil.mp hs']
          rfl
  | cons c l ih =>
    obtain ⟨hlf, hcr⟩ := hl
    rw [List.mem_cons, not_or] at hlf hcr
    rcases List.prefix_cons_iff.mp h with rfl | ⟨s', rfl, hs⟩
    · rfl
    · rw [splitLine, if_neg (Ne.symm hlf.1), if_neg (Ne.symm hcr.1)]
      exact ih ⟨hlf.2, hcr.2⟩ hs

/-- A line that has come whole, and at most what follows it. -/
theorem splitLine_whole {l : Str} (hl : IsLine l) (t : Terminator) (rest : Str) :
    (splitLine (l ++ (t.text ++ rest))).1 = l ∧ (splitLine (l ++ (t.text ++ rest))).2 <:+ rest := by
  by_cases ht : t.Apart rest
  · rw [splitLine_line hl t rest ht]
    exact ⟨rfl, List.suffix_rfl⟩
  · -- the line feed that follows a lone CR goes with it
    obtain ⟨rfl, hhead⟩ := Classical.not_imp.mp ht
    obtain ⟨rest, rfl⟩ := List.head?_eq_some_iff.mp (not_not.mp hhead)
    have hcrlf := splitLine_line hl .crlf rest nofun
    change (splitLine (l ++ (Terminator.crlf.text ++ rest))).1 = l ∧
      (splitLine (l ++ (Terminator.crlf.text ++ rest))).2 <:+ lf :: rest
    rw [hcrlf]
    exact ⟨rfl, List.suffix_cons lf rest⟩

/-- A text that does not begin with a line feed goes on with the last line of what is
    before it. -/
theorem splitLine_append {t : Str} (ht : t.head? ≠ some lf) (s : Str) :
    IsLine s ∧ splitLine (s ++ t) = (s ++ (splitLine t).1, (splitLine t).2) ∨
      splitLine (s ++ t) = ((splitLine s).1, (splitLine s).2 ++ t) := by
  induction s with
  | nil => exact .inl ⟨⟨List.not_mem_nil, List.not_mem_nil⟩, rfl⟩
  | cons c s ih =>
    rw [List.cons_append, splitLine, splitLine]
    by_cases hlf : c = lf
    · rw [if_pos hlf, if_pos hlf]
      exact .inr rfl
    by_cases hcr : c = cr
    · rw [if_neg hlf, if_pos hcr, if_neg hlf, if_pos hcr]
      cases s with
      | nil =>
        rw [List.nil_append, if_neg ht]
        exact .inr rfl
      | cons d s =>
        refine .inr (Prod.ext rfl ?_)
        change (if some d = some lf then s ++ t else d :: (s ++ t)) =
          (if some d = some lf then s else d :: s) ++ t
        split_ifs <;> rfl
    · rw [if_neg hlf, if_neg hcr, if_neg hlf, if_neg hcr]
      rcases ih with ⟨hline, heq⟩ | heq
      · refine .inl ⟨⟨?_, ?_⟩, by rw [heq]; rfl⟩
        · exact List.not_mem_cons_of_ne_of_not_mem (Ne.symm hlf) hline.1
        · exact List.not_mem_cons_of_ne_of_not_mem (Ne.symm hcr) hline.2
      · exact .inr (by rw [heq])

theorem newLine_pos {newLine : Str} (h : IsNewLine newLine) : 0 < newLine.length := by
  rcases h with rfl | rfl <;> decide

theorem splitLine_newLine {l newLine : Str} (hl : IsLine l) (h : IsNewLine newLine) (rest : Str) :
    splitLine (l ++ (newLine ++ rest)) = (l, rest) := by
  rcases h with rfl | rfl
  · exact splitLine_line hl .lf rest nofun
  · exact splitLine_line hl .crlf rest nofun

theorem readLine_newLine {l newLine : Str} (hl : IsLine l) (h : IsNewLine newLine) (rest : Str)
    (reads : List ℕ) :
    Reader.readLine ⟨l ++ (newLine ++ rest), reads⟩ = (some l, ⟨rest, reads⟩) := by
  rcases h with rfl | rfl
  · exact readLine_line hl .lf rest reads nofun
  · exact readLine_line hl .crlf rest reads nofun

theorem InputLine.readLine (line : InputLine) (rest : Str) (reads : List ℕ)
    (h : line.ending.Apart rest) :
    Reader.readLine ⟨line.chars ++ rest, reads⟩ = (some line.text, ⟨rest, reads⟩) := by
  rw [InputLine.chars, List.append_assoc]
  exact readLine_line line.isLine line.ending rest reads h

theorem InputLine.head_ne_lf {line : InputLine} (h : line.text ≠ []) (rest : Str) :
    (line.chars ++ rest).head? ≠ some lf := by
  obtain ⟨text, ending, isLine⟩ := line
  cases text with
  | nil => exact absurd rfl h
  | cons c text =>
    intro hc
    exact isLine.1 (Option.some.inj hc ▸ List.mem_cons_self)

theorem readLine_suffix (r : Reader) : r.readLine.2.chars <:+ r.chars := by
  unfold Reader.readLine
  split_ifs
  · exact List.suffix_rfl
  · exact splitLine_suffix _

theorem readLine_shorter {r : Reader} (h : r.chars ≠ []) :
    r.readLine.2.chars.length < r.chars.length := by
  rw [Reader.readLine, if_neg h]
  exact splitLine_shorter h

/-- The lines of a stream, the last with or without its end; the fuel is one for each. -/
def linesUpTo : ℕ → Str → List Str
  | 0, _ => []
  | fuel + 1, s => if s = [] then [] else (splitLine s).1 :: linesUpTo fuel (splitLine s).2

def lines (s : Str) : List Str := linesUpTo s.length s

/-- Fuel beyond the length of the stream makes no difference. -/
theorem linesUpTo_stable {fuel fuel' : ℕ} {s : Str} (h : s.length ≤ fuel) (h' : s.length ≤ fuel') :
    linesUpTo fuel s = linesUpTo fuel' s := by
  induction fuel generalizing fuel' s with
  | zero =>
    obtain rfl := List.length_eq_zero_iff.mp (Nat.le_zero.mp h)
    cases fuel' <;> rfl
  | succ fuel ih =>
    by_cases hs : s = []
    · subst hs
      cases fuel' <;> rfl
    · have hlt := splitLine_shorter hs
      obtain ⟨fuel', rfl⟩ := Nat.exists_eq_succ_of_ne_zero (n := fuel') (by omega)
      have hrest : linesUpTo fuel (splitLine s).2 = linesUpTo fuel' (splitLine s).2 :=
        ih (by omega) (by omega)
      rw [Nat.succ_eq_add_one, linesUpTo, linesUpTo, if_neg hs, if_neg hs, hrest]

theorem lines_cons {s : Str} (h : s ≠ []) :
    lines s = (splitLine s).1 :: lines (splitLine s).2 := by
  have hlt := splitLine_shorter h
  have hmore : lines s = linesUpTo (s.length + 1) s :=
    linesUpTo_stable (Nat.le_refl _) (Nat.le_succ _)
  rw [hmore, linesUpTo, if_neg h, linesUpTo_stable (Nat.le_of_lt hlt) (Nat.le_refl _)]
  rfl

/-- The first line of what has come, once its end and what follows a CR have come too. -/
def completeLine : Str → Option (Str × Str)
  | [] => none
  | c :: cs =>
    if c = lf then some ([], cs)
    else if c = cr then
      if cs = [] then none else some ([], if cs.head? = some lf then cs.tail else cs)
    else (completeLine cs).map fun (line, rest) => (c :: line, rest)

theorem splitLine_of_completeLine {s line rest : Str} (h : completeLine s = some (line, rest))
    (more : Str) : splitLine (s ++ more) = (line, rest ++ more) := by
  induction s generalizing line with
  | nil => cases h
  | cons c cs ih =>
    rw [completeLine] at h
    rw [List.cons_append, splitLine]
    by_cases hlf : c = lf
    · rw [if_pos hlf] at h ⊢
      obtain ⟨rfl, rfl⟩ := Prod.mk.inj (Option.some.inj h)
      rfl
    by_cases hcr : c = cr
    · rw [if_neg hlf, if_pos hcr] at h ⊢
      cases cs with
      | nil => cases h
      | cons d cs =>
        obtain ⟨rfl, rfl⟩ := Prod.mk.inj (Option.some.inj h)
        have hhead : (d :: cs ++ more).head? = (d :: cs).head? := rfl
        by_cases hd : (d :: cs).head? = some lf
        · rw [if_pos hd, if_pos (hhead.trans hd)]
          rfl
        · rw [if_neg hd, if_neg (hhead ▸ hd)]
    · rw [if_neg hlf, if_neg hcr] at h ⊢
      obtain ⟨⟨line', rest'⟩, hcs, heq⟩ := Option.map_eq_some_iff.mp h
      obtain ⟨rfl, rfl⟩ := Prod.mk.inj heq
      rw [ih hcs]

/-- What has come and ends in a line feed has no incomplete line. -/
theorem eq_nil_of_completeLine {s : Str} (h : completeLine s = none)
    (hend : s = [] ∨ s.getLast? = some lf) : s = [] := by
  refine hend.resolve_right fun hlast => ?_
  induction s with
  | nil => cases hlast
  | cons c cs ih =>
    rw [completeLine] at h
    split_ifs at h with hlf hcr hnil
    · subst hnil
      exact absurd (Option.some.inj hlast) hlf
    · cases cs with
      | nil => exact absurd (Option.some.inj hlast) hlf
      | cons d cs =>
        rw [List.getLast?_cons_cons] at hlast
        exact ih (Option.map_eq_none_iff.mp h) (.inr hlast) hlast

/-- Reading goes on until `count` characters have come or the stream has ended. -/
def Reader.readBlock : ℕ → ℕ → Reader → Str × Reader
  | 0, _, r => ([], r)
  | fuel + 1, count, r =>
    if count = 0 then ([], r)
    else
      let (chars, r) := r.read count
      if chars = [] then ([], r)
      else
        let (rest, r) := r.readBlock fuel (count - chars.length)
        (chars ++ rest, r)

/-- However the stream is split, a block is the next `count` characters. -/
theorem readBlock_eq (fuel count : ℕ) (hfuel : count ≤ fuel) (r : Reader) :
    ∃ reads, r.readBlock fuel count = (r.chars.take count, ⟨r.chars.drop count, reads⟩) := by
  induction fuel generalizing count r with
  | zero =>
    obtain rfl := Nat.le_zero.mp hfuel
    exact ⟨r.reads, rfl⟩
  | succ fuel ih =>
    rw [Reader.readBlock]
    by_cases hc : count = 0
    · subst hc
      exact ⟨r.reads, rfl⟩
    · rw [if_neg hc]
      generalize hsize : min count (max 1 (r.reads.headD count)) = size
      have hread : r.read count = (r.chars.take size, ⟨r.chars.drop size, r.reads.tail⟩) := by
        rw [Reader.read, hsize]
      have hpos : 0 < size := by omega
      have hle : size ≤ count := by omega
      rw [hread]
      by_cases hnil : r.chars.take size = []
      · have hchars : r.chars = [] := by
          rw [List.take_eq_nil_iff] at hnil
          exact hnil.resolve_left (by omega)
        refine ⟨r.reads.tail, ?_⟩
        simp only [hchars, List.take_nil, List.drop_nil, if_true]
      · obtain ⟨reads, hrest⟩ :=
          ih (count - (r.chars.take size).length) (by
            have hpos' := List.length_pos_iff.mpr hnil
            omega) ⟨r.chars.drop size, r.reads.tail⟩
        refine ⟨reads, ?_⟩
        simp only [if_neg hnil, hrest, Prod.mk.injEq, Reader.mk.injEq, and_true]
        rw [List.length_take]
        by_cases hlen : size ≤ r.chars.length
        · rw [Nat.min_eq_left hlen, ← List.take_add, List.drop_drop]
          have hsum : size + (count - size) = count := by omega
          rw [hsum]
          exact ⟨rfl, rfl⟩
        · rw [List.take_of_length_le (show r.chars.length ≤ size by omega),
            List.drop_of_length_le (show r.chars.length ≤ size by omega),
            List.take_of_length_le (show r.chars.length ≤ count by omega),
            List.drop_of_length_le (show r.chars.length ≤ count by omega)]
          simp

theorem readBlock_length_le (fuel count : ℕ) (hfuel : count ≤ fuel) (r : Reader) :
    (r.readBlock fuel count).2.chars.length ≤ r.chars.length := by
  obtain ⟨reads, h⟩ := readBlock_eq fuel count hfuel r
  rw [h, List.length_drop]
  exact Nat.sub_le _ _

end NetServices.TextReader
