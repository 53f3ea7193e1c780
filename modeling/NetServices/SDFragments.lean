import NetServices.SDSystem

set_option autoImplicit false

/-!
# How the streams are split cannot be seen

The stream of a connection arrives in pieces, and a read delivers what is there.
What the server reads out of the pieces, and so all that it answers, stores and
writes, depends on the characters alone, in every interleaving of the
connections.
-/
namespace NetServices.SDServer
open Utf16 (Str lit)
open TextReader (Reader)
open Numerals (parseInt)

theorem readLine_congr {r r' : Reader} (h : r.chars = r'.chars) :
    r.readLine.1 = r'.readLine.1 ∧ r.readLine.2.chars = r'.readLine.2.chars := by
  unfold Reader.readLine
  rw [h]
  split_ifs
  · exact ⟨rfl, h⟩
  · exact ⟨rfl, rfl⟩

theorem readBlock_congr {r r' : Reader} (h : r.chars = r'.chars) (count : ℕ) :
    (r.readBlock count count).1 = (r'.readBlock count count).1 ∧
      (r.readBlock count count).2.chars = (r'.readBlock count count).2.chars := by
  obtain ⟨reads, heq⟩ := TextReader.readBlock_eq count count le_rfl r
  obtain ⟨reads', heq'⟩ := TextReader.readBlock_eq count count le_rfl r'
  rw [heq, heq', h]
  exact ⟨rfl, rfl⟩

theorem readPost_congr {r r' : Reader} (h : r.chars = r'.chars) :
    (readPost r).1 = (readPost r').1 ∧ (readPost r).2.chars = (readPost r').2.chars := by
  obtain ⟨hname, h₁⟩ := readLine_congr h
  obtain ⟨hlength, h₂⟩ := readLine_congr h₁
  unfold readPost
  simp only [hname, hlength]
  split_ifs with hempty
  · exact ⟨rfl, h₁⟩
  · cases parseInt r'.readLine.2.readLine.1 with
    | none => exact ⟨rfl, h₂⟩
    | some length =>
      simp only
      split_ifs
      · exact ⟨rfl, h₂⟩
      · obtain ⟨hcontent, h₃⟩ := readBlock_congr h₂ length.toNat
        rw [hcontent]
        exact ⟨rfl, h₃⟩

/-- The next command and what follows it are read off the characters. -/
theorem nextCommand_congr {r r' : Reader} (h : r.chars = r'.chars) (id : UInt64) :
    (nextCommand id r).1 = (nextCommand id r').1 ∧
      (nextCommand id r).2.chars = (nextCommand id r').2.chars := by
  obtain ⟨hline, h₁⟩ := readLine_congr h
  unfold nextCommand
  generalize r.readLine = result at *
  generalize r'.readLine = result' at *
  obtain ⟨line, r₁⟩ := result
  obtain ⟨line', r₁'⟩ := result'
  obtain rfl : line = line' := hline
  obtain ⟨hargument, h₂⟩ := readLine_congr h₁
  obtain ⟨hpost, h₃⟩ := readPost_congr h₁
  cases line with
  | none => exact ⟨rfl, h₁⟩
  | some msg =>
    simp only at hargument hpost h₂ h₃ ⊢
    split_ifs
    · exact ⟨rfl, h₁⟩
    · exact ⟨rfl, h₁⟩
    · exact ⟨congrArg (fun s => some (Command.resume (Numerals.parseULong s))) hargument, h₂⟩
    · exact ⟨congrArg (fun s => some (Command.close (Numerals.parseULong s))) hargument, h₂⟩
    · exact ⟨rfl, h₁⟩
    · exact ⟨congrArg (fun s : Option Str => some (Command.get (s.getD []))) hargument, h₂⟩
    · exact ⟨congrArg some hpost, h₃⟩
    · exact ⟨rfl, h₁⟩

namespace System

variable {κ : Type} {host : Host} [DecidableEq κ]

/-- The systems differ at most in how the streams are split. -/
structure SameText (sys sys' : System κ) : Prop where
  table : sys.table = sys'.table
  files : sys.files = sys'.files
  sessionId : ∀ c, (sys.conns c).sessionId = (sys'.conns c).sessionId
  chars : ∀ c, (sys.conns c).reader.chars = (sys'.conns c).reader.chars
  ended : ∀ c, (sys.conns c).ended = (sys'.conns c).ended

omit [DecidableEq κ] in
theorem SameText.core {sys sys' : System κ} (h : SameText sys sys') (c : κ) :
    sys.core c = sys'.core c := by
  unfold System.core
  rw [h.sessionId, h.table, h.files]

theorem SameText.after {sys sys' : System κ} (h : SameText sys sys') (c : κ) (core : Core)
    {r r' : Reader} (hr : r.chars = r'.chars) (ended : Bool) :
    SameText (sys.after c core r ended) (sys'.after c core r' ended) where
  table := rfl
  files := rfl
  sessionId d := by
    rw [after_conns, after_conns]
    split_ifs
    · rfl
    · exact h.sessionId d
  chars d := by
    rw [after_conns, after_conns]
    split_ifs
    · exact hr
    · exact h.chars d
  ended d := by
    rw [after_conns, after_conns]
    split_ifs
    · rfl
    · exact h.ended d

theorem SameText.step {sys sys' : System κ} (h : SameText sys sys') (e : Event κ) :
    (sys.step host e).1 = (sys'.step host e).1 ∧
      SameText (sys.step host e).2 (sys'.step host e).2 := by
  cases e with
  | sweep now =>
    have htable : sys.table.sweep now = sys'.table.sweep now := by rw [h.table]
    exact ⟨rfl, htable, h.files, h.sessionId, h.chars, h.ended⟩
  | request c now =>
    cases hended : (sys.conns c).ended with
    | true =>
      rw [System.step, System.step, if_pos hended, if_pos ((h.ended c).symm.trans hended)]
      exact ⟨rfl, h⟩
    | false =>
      rw [step_request now hended, step_request now ((h.ended c).symm.trans hended),
        ← h.sessionId c, ← h.core c]
      obtain ⟨hcommand, hrest⟩ := nextCommand_congr (h.chars c) (sys.conns c).sessionId
      rw [← (readLine_congr (h.chars c)).1]
      generalize nextCommand (sys.conns c).sessionId (sys.conns c).reader = next at *
      generalize nextCommand (sys.conns c).sessionId (sys'.conns c).reader = next' at *
      obtain ⟨command, r⟩ := next
      obtain ⟨command', r'⟩ := next'
      obtain rfl : command = command' := hcommand
      cases command with
      | none => exact ⟨rfl, h.after c (sys.core c) hrest true⟩
      | some command =>
        simp only
        cases execute host now (sys.core c) command with
        | none => exact ⟨rfl, h.after c (sys.core c) hrest true⟩
        | some result => exact ⟨rfl, h.after c result.2 hrest command.isInvalid⟩

/-- However the streams of the connections are split, every pass is answered the same, and
    the same sessions, documents and files are left. -/
theorem fragments_unseen (host : Host) (sessionTimeout : ℤ) {inputs inputs' : κ → Reader}
    (h : ∀ c, (inputs c).chars = (inputs' c).chars) (events : List (Event κ)) :
    Machine.trace (System.step host) (fresh sessionTimeout inputs) events =
      Machine.trace (System.step host) (fresh sessionTimeout inputs') events ∧
    SameText (Machine.final (System.step host) (fresh sessionTimeout inputs) events)
      (Machine.final (System.step host) (fresh sessionTimeout inputs') events) :=
  Machine.simulation (System.step host) (R := fun _ => SameText)
    (fun _ _ e _ hsame => hsame.step e) ⟨rfl, rfl, fun _ => rfl, h, fun _ => rfl⟩

/-- A document that arrives in one piece, or one character at a time. -/
theorem fragments_unseen_post :
    let text := lit "open\npost\na\n2\nxy"
    let events := [Event.request () 0, .request () 1]
    Machine.trace (System.step .unix) (fresh 100 fun _ => ⟨text, []⟩) events =
      Machine.trace (System.step .unix) (fresh 100 fun _ => ⟨text, [1, 1]⟩) events := by
  intro text events
  exact (@fragments_unseen Unit _ .unix 100 (fun _ => ⟨text, []⟩) (fun _ => ⟨text, [1, 1]⟩)
    (fun _ => rfl) events).1

end System
end NetServices.SDServer
