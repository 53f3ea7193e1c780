import NetServices.SDEncoding
import NetServices.SDSystem

set_option autoImplicit false

/-!
# The server process

The connections of the server, each with its stream writer and a client that stays.
The thread of a connection does not handle what its `Run` does not handle, so that
such an exception ends the process and with it every other connection. Until then
the process is a `System`, and sends what the system sends but for half a character
at the end of a document.
-/
namespace NetServices.SDServer
open Utf16 (Str WellFormed feed)
open TextReader (Reader)
open TextWriter (Writer takes_all)

/-- The system with what each encoder holds back. -/
structure Process (κ : Type) extends System κ where
  held : κ → Option UInt16
  crashed : Bool

instance (e : Exn) : Decidable (Handled e) := inferInstanceAs (Decidable (_ ∨ _))

namespace Process

variable {κ : Type} [DecidableEq κ]

def fresh (sessionTimeout : ℤ) (inputs : κ → Reader) : Process κ where
  toSystem := .fresh sessionTimeout inputs
  held _ := none
  crashed := false

/-- The writer counts what it sends in one pass, with what it held back before. -/
def state (p : Process κ) (c : κ) : State Writer where
  toCore := p.core c
  reader := (p.conns c).reader
  writer := ⟨[], p.held c, (p.held c).toList⟩

def after (p : Process κ) (c : κ) (core : Core) (reader : Reader) (held : Option UInt16)
    (ended crashed : Bool) : Process κ where
  toSystem := p.toSystem.after c core reader ended
  held := Function.update p.held c held
  crashed := crashed

def step (host : Host) (p : Process κ) : Event κ → Answer × Process κ
  | .request c now =>
    if p.crashed || (p.conns c).ended then (⟨none, []⟩, p)
    else
      let line := (p.conns c).reader.readLine.1
      match loopBody (host.streaming fun _ => none) now (p.state c) with
      | .ok done σ => (⟨line, σ.writer.delivered⟩,
          p.after c σ.toCore σ.reader σ.writer.held done false)
      | .error e σ => (⟨line, σ.writer.delivered⟩,
          p.after c σ.toCore σ.reader σ.writer.held true (!decide (Handled e)))
  | .sweep now =>
    if p.crashed then (⟨none, []⟩, p)
    else (⟨none, []⟩, { p with toSystem := { p.toSystem with table := p.table.sweep now } })

variable {host : Host} {p : Process κ}

omit [DecidableEq κ] in
theorem state_delivered (p : Process κ) (c : κ) : (p.state c).writer.delivered = [] := by
  have hnothing (held : Option UInt16) : Writer.delivered ⟨[], held, held.toList⟩ = [] := by
    cases held <;> rfl
  exact hnothing _

/-- A step of a connection, in terms of the command that it reads. -/
theorem step_request (now : DateTime) {c : κ} (hp : p.crashed = false)
    (hc : (p.conns c).ended = false) : p.step host (.request c now) =
      match nextCommand (p.conns c).sessionId (p.conns c).reader with
      | (none, r) => (⟨(p.conns c).reader.readLine.1, []⟩,
          p.after c (p.core c) r (p.held c) true false)
      | (some command, r) =>
        match execute host now (p.core c) command with
        | none => (⟨(p.conns c).reader.readLine.1, []⟩,
            p.after c (p.core c) r (p.held c) true true)
        | some result =>
          match (p.state c).writer.takes (result.1.parts host.newLine) with
          | (true, writer) => (⟨(p.conns c).reader.readLine.1, writer.delivered⟩,
              p.after c result.2 r writer.held command.isInvalid false)
          | (false, writer) => (⟨(p.conns c).reader.readLine.1, writer.delivered⟩,
              p.after c result.2 r writer.held true true) := by
  have hrunning : (p.crashed || (p.conns c).ended) = false := by rw [hp, hc]; rfl
  have hstrict := loopBody_strict host now (p.state c)
  have hsent := state_delivered p c
  have hnext : nextCommand (p.state c).sessionId (p.state c).reader =
      nextCommand (p.conns c).sessionId (p.conns c).reader := rfl
  have hexec : execute host now (p.state c).toCore = execute host now (p.core c) := rfl
  rw [step, hrunning, if_neg Bool.false_ne_true]
  generalize loopBody (host.streaming fun _ => none) now (p.state c) = outcome at hstrict
  cases hstrict with
  | ended r read =>
    rw [hnext] at read
    simp only [read, hsent]
    rfl
  | raised command r read exec =>
    rw [hnext] at read
    rw [hexec] at exec
    simp only [read, exec, hsent]
    rfl
  | sent command r reply core writer read exec takes =>
    rw [hnext] at read
    rw [hexec] at exec
    simp only [read, exec, takes]
  | refused command r reply core writer pending read exec takes =>
    rw [hnext] at read
    rw [hexec] at exec
    simp only [read, exec, takes]
    rfl

theorem step_crashed (host : Host) (hp : p.crashed = true) (e : Event κ) :
    p.step host e = (⟨none, []⟩, p) := by
  cases e with
  | request c now =>
    rw [step, hp]
    rfl
  | sweep now => rw [step, if_pos hp]

/-- What comes after a crash does not undo it. -/
theorem crashed_final {events : List (Event κ)}
    (h : (Machine.final (step host) p events).crashed = false) : p.crashed = false := by
  cases hp : p.crashed with
  | false => rfl
  | true =>
    have hcrashed := Machine.final_invariant (step host) (I := fun p => p.crashed = true)
      (fun p e hp => by rw [step_crashed host hp]; exact hp) hp events
    cases h.symm.trans hcrashed

theorem running_of_step {e : Event κ} (h : (p.step host e).2.crashed = false) :
    p.crashed = false :=
  @crashed_final κ _ host p [e] h

/-- What leaves the encoder of a text that it takes. -/
def leaving (text : Str) : Str := if feed none text = some none then text else text.dropLast

theorem leaving_wellFormed {text : Str} (h : WellFormed text) : leaving text = text :=
  if_pos (Utf16.feed_wellFormed h)

/-- A reply that is taken finds nothing held back, and leaves the encoder but for half a
    character at its end. -/
theorem takes_leaving {held : Option UInt16} {reply : Reply} {writer : Writer}
    (h : Writer.takes ⟨[], held, held.toList⟩ (reply.parts host.newLine) = (true, writer)) :
    held = none ∧ feed none (reply.text host.newLine) = some writer.held ∧
      writer.delivered = leaving (reply.text host.newLine) := by
  cases held with
  | some u =>
    obtain ⟨pending, hrefused⟩ := @takes_held host [u] u reply
    cases h.symm.trans hrefused
  | none =>
    refine ⟨rfl, ?_⟩
    cases hfeed : feed none (reply.text host.newLine) with
    | none =>
      rw [← parts_flatten] at hfeed
      obtain ⟨taken, pending, held', hrefused, -⟩ := @TextWriter.takes_refused _ none [] hfeed
      cases h.symm.trans hrefused
    | some held' =>
      have htext := hfeed
      rw [← parts_flatten] at hfeed
      obtain ⟨-, rfl⟩ := Prod.mk.inj (h.symm.trans (takes_all hfeed))
      refine ⟨rfl, ?_⟩
      rw [parts_flatten, leaving, htext, Writer.delivered]
      cases held' <;> rfl

/-- As long as it goes on, the process is the system, and sends what leaves the encoder of
    what the system sends. -/
theorem step_toSystem {e : Event κ} (h : (p.step host e).2.crashed = false) :
    (p.step host e).2.toSystem = (p.toSystem.step host e).2 ∧
      (p.step host e).1 = ⟨(p.toSystem.step host e).1.line,
        leaving (p.toSystem.step host e).1.sent⟩ := by
  have hp := running_of_step h
  cases e with
  | sweep now =>
    rw [step, if_neg (by rw [hp]; exact Bool.false_ne_true)]
    exact ⟨rfl, rfl⟩
  | request c now =>
    cases hc : (p.conns c).ended with
    | true =>
      have hstep : p.step host (.request c now) = (⟨none, []⟩, p) := by
        rw [step, hc, Bool.or_true, if_pos rfl]
      rw [hstep, System.step, if_pos hc]
      exact ⟨rfl, rfl⟩
    | false =>
      rw [step_request now hp hc] at h ⊢
      rw [System.step_request now hc]
      cases hnext : nextCommand (p.conns c).sessionId (p.conns c).reader with
      | mk command r =>
        rw [hnext] at h
        cases command with
        | none => exact ⟨rfl, rfl⟩
        | some command =>
          simp only at h ⊢
          cases hexec : execute host now (p.core c) command with
          | none =>
            rw [hexec] at h
            cases h
          | some result =>
            rw [hexec] at h
            simp only at h ⊢
            cases htakes : (p.state c).writer.takes (result.1.parts host.newLine) with
            | mk all writer =>
              rw [htakes] at h
              cases all with
              | false => cases h
              | true => exact ⟨rfl, congrArg _ (takes_leaving htakes).2.2⟩

theorem final_toSystem {events : List (Event κ)}
    (h : (Machine.final (step host) p events).crashed = false) :
    (Machine.final (step host) p events).toSystem =
      Machine.final (System.step host) p.toSystem events := by
  induction events generalizing p with
  | nil => rfl
  | cons e events ih =>
    have hrest := @ih (p.step host e).2 h
    rw [(step_toSystem (crashed_final h)).1] at hrest
    exact hrest

/-- Conditions that say the same of the process and of the system as long as the process
    goes on say the same of a run. -/
theorem every_toSystem {P : Process κ → Event κ → Prop} {Q : System κ → Event κ → Prop}
    (hPQ : ∀ p e, (p.step host e).2.crashed = false → (P p e ↔ Q p.toSystem e))
    {events : List (Event κ)} (h : (Machine.final (step host) p events).crashed = false) :
    Machine.Every (step host) P p events ↔
      Machine.Every (System.step host) Q p.toSystem events := by
  induction events generalizing p with
  | nil => exact Iff.rfl
  | cons e events ih =>
    have hstep : (p.step host e).2.crashed = false := @crashed_final κ _ host _ events h
    have hrest := @ih (p.step host e).2 h
    rw [(step_toSystem hstep).1] at hrest
    exact and_congr (hPQ p e hstep) hrest

end Process
end NetServices.SDServer
