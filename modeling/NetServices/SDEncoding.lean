import NetServices.SDFaults

set_option autoImplicit false

/-!
# Replies through the strict encoder

A pass of the loop on a network that never fails. The texts of a reply go out one
after the other, up to the first that the encoder refuses; then nothing more can
be sent on the connection, not even an error, and the exception leaves `Run`. Half
a character at the end of a reply is held back, so that the next reply is refused.
-/
namespace NetServices.SDServer
open Utf16 (Str lit WellFormed wellFormed_lit feed)
open TextReader (Reader)
open TextWriter (Writer encoderException takes_all takes_refused takes_refuses)
open Numerals (decimal)
open Exceptions

/-- The texts that are written to send the reply. -/
def Reply.parts (newLine : Str) : Reply → List Str
  | .accepted sessionId => [lit "accepted" ++ newLine, decimal sessionId.toNat ++ newLine]
  | .rejected reason => [lit "rejected" ++ newLine, reason ++ newLine]
  | .closed sessionId => [lit "closed" ++ newLine, decimal sessionId.toNat ++ newLine]
  | .success => [lit "success" ++ newLine]
  | .document name content => [lit "success" ++ newLine, name ++ newLine,
      decimal content.length ++ newLine, content]
  | .error message => [lit "error" ++ newLine, message ++ newLine]

theorem parts_flatten (newLine : Str) (reply : Reply) :
    (reply.parts newLine).flatten = reply.text newLine := by
  cases reply <;>
    simp only [Reply.parts, Reply.text, List.flatten_cons, List.flatten_nil, List.append_nil,
      List.append_assoc]

/-- The first line of a reply. -/
def Reply.word : Reply → Str
  | .accepted _ => lit "accepted"
  | .rejected _ => lit "rejected"
  | .closed _ => lit "closed"
  | .success | .document _ _ => lit "success"
  | .error _ => lit "error"

def replyWords : List Str :=
  [lit "accepted", lit "rejected", lit "closed", lit "success", lit "error"]

theorem word_mem (reply : Reply) : reply.word ∈ replyWords := by
  cases reply <;> simp only [Reply.word, replyWords, List.mem_cons, true_or, or_true]

theorem word_isLine (reply : Reply) : TextReader.IsLine reply.word := by
  have hwords : ∀ word ∈ replyWords, TextReader.IsLine word := by decide
  exact hwords _ (word_mem reply)

theorem parts_word (newLine : Str) (reply : Reply) :
    ∃ texts, reply.parts newLine = (reply.word ++ newLine) :: texts := by
  cases reply <;> exact ⟨_, rfl⟩

section
variable {host : Host}

theorem wellFormed_line_append (host : Host) (text rest : Str) :
    WellFormed (text ++ host.newLine ++ rest) ↔ WellFormed text ∧ WellFormed rest := by
  constructor
  · intro h
    rw [← Utf16.feed_eq_iff, List.append_assoc, Utf16.feed_append] at h
    obtain ⟨held, htext, hrest⟩ := Option.bind_eq_some_iff.mp h
    cases held with
    | none =>
      rw [Utf16.feed_append, Utf16.feed_wellFormed (newLine_wellFormed host), Option.bind_some]
        at hrest
      exact ⟨Utf16.feed_eq_iff.mp htext, Utf16.feed_eq_iff.mp hrest⟩
    | some u =>
      rw [Utf16.feed_append, feed_newLine] at hrest
      cases hrest
  · rintro ⟨htext, hrest⟩
    exact (htext.append (newLine_wellFormed host)).append hrest

theorem wellFormed_line_iff (host : Host) (text : Str) :
    WellFormed (text ++ host.newLine) ↔ WellFormed text := by
  have h := wellFormed_line_append host text []
  rw [List.append_nil] at h
  exact h.trans (and_iff_left ⟨[], rfl⟩)

/-- A reply can be sent exactly if its text is well-formed. -/
theorem encodable_iff (host : Host) (reply : Reply) :
    reply.Encodable ↔ WellFormed (reply.text host.newLine) := by
  have hline (text : Str) : WellFormed (lit "error" ++ host.newLine ++ (text ++ host.newLine)) ↔
      WellFormed text :=
    (wellFormed_line_append host _ _).trans ((and_iff_right (wellFormed_lit _)).trans
      (wellFormed_line_iff host text))
  cases reply with
  | accepted id | closed id =>
    refine iff_of_true trivial ?_
    exact ((wellFormed_lit _).append (newLine_wellFormed host)).append
      ((Numerals.decimal_wellFormed _).append (newLine_wellFormed host))
  | success => exact iff_of_true trivial ((wellFormed_lit _).append (newLine_wellFormed host))
  | rejected reason =>
    exact ((wellFormed_line_append host _ _).trans ((and_iff_right (wellFormed_lit _)).trans
      (wellFormed_line_iff host reason))).symm
  | error message => exact (hline message).symm
  | document name content =>
    rw [Reply.text, wellFormed_line_append, wellFormed_line_append, wellFormed_line_append,
      and_iff_right (wellFormed_lit _), and_iff_right (Numerals.decimal_wellFormed _)]
    exact Iff.rfl

end

section
variable {host : Host} {core : Core} {r : Reader}

/-- What comes of texts that are written one after the other. -/
def sentBy (core : Core) (r : Reader) : Bool × Writer → EStateM.Result Exn (State Writer) Unit
  | (true, w) => .ok () ⟨core, r, w⟩
  | (false, w) => .error encoderException ⟨core, r, w⟩

theorem write_sentBy (text : Str) (w : Writer) :
    write (host.streaming fun _ => none) text ⟨core, r, w⟩ = sentBy core r (w.takes [text]) := by
  simp only [write, Host.streaming, Writer.takes, Writer.write]
  cases feed w.held (w.pending ++ text) <;> rfl

theorem write_then {m : Server Writer Unit} {texts : List Str}
    (h : ∀ w, m ⟨core, r, w⟩ = sentBy core r (w.takes texts)) (text : Str) (w : Writer) :
    (write (host.streaming fun _ => none) text >>= fun _ => m) ⟨core, r, w⟩ =
      sentBy core r (w.takes (text :: texts)) := by
  rw [bind_run, write_sentBy]
  simp only [Writer.takes, Writer.write]
  cases feed w.held (w.pending ++ text) with
  | none => rfl
  | some held => exact h _

theorem send_sentBy (reply : Reply) (w : Writer) :
    reply.send (host.streaming fun _ => none) ⟨core, r, w⟩ =
      sentBy core r (w.takes (reply.parts host.newLine)) := by
  cases reply with
  | success => exact write_sentBy _ w
  | accepted | rejected | closed | error => exact write_then (write_sentBy _) _ w
  | document => exact write_then (write_then (write_then (write_sentBy _) _) _) _ w

/-- A writer that refuses everything refuses the report of an exception, too. -/
theorem sendError_refused (message : Str) {w : Writer} (h : ∀ more, w.Refuses more) :
    ∃ pending, sendError (host.streaming fun _ => none) message ⟨core, r, w⟩ =
      .error encoderException ⟨core, r, { w with pending := pending }⟩ := by
  have hsend : sendError (host.streaming fun _ => none) message ⟨core, r, w⟩ = _ :=
    @send_sentBy host core r (.error message) w
  rw [hsend, Reply.parts, Writer.takes, TextWriter.write_refused _ (h _)]
  exact ⟨_, rfl⟩

theorem guard_refused {m : Server Writer Unit} {σ : State Writer} {w : Writer}
    (hm : m σ = .error encoderException ⟨core, r, w⟩) (h : ∀ more, w.Refuses more)
    (guard : Guard) : ∃ pending, guard.run (host.streaming fun _ => none) m σ =
      .error encoderException ⟨core, r, { w with pending := pending }⟩ := by
  cases guard with
  | unguarded => exact ⟨w.pending, hm⟩
  | answered start =>
    obtain ⟨pending, hsend⟩ :=
      @sendError_refused host core r (lit start ++ encoderException.message) w h
    exact ⟨pending, by simp only [Guard.run, tryCatch_run, hm, hsend]⟩
  | rethrown =>
    obtain ⟨pending, hsend⟩ := @sendError_refused host core r encoderException.message w h
    exact ⟨pending, by simp only [Guard.run, tryCatch_run, bind_run, hm, hsend]⟩

end

/-- What one pass of the loop comes to on a network that never fails. -/
inductive StrictPass (host : Host) (now : DateTime) (σ : State Writer) :
    EStateM.Result Exn (State Writer) Bool → Prop where
  | ended (r : Reader) (read : nextCommand σ.sessionId σ.reader = (none, r)) :
      StrictPass host now σ (.ok true { σ with reader := r })
  | raised (command : Command) (r : Reader)
      (read : nextCommand σ.sessionId σ.reader = (some command, r))
      (exec : execute host now σ.toCore command = none) :
      StrictPass host now σ
        (.error ⟨.argumentOutOfRange, host.negativeCapacity⟩ { σ with reader := r })
  | sent (command : Command) (r : Reader) (reply : Reply) (core : Core) (writer : Writer)
      (read : nextCommand σ.sessionId σ.reader = (some command, r))
      (exec : execute host now σ.toCore command = some (reply, core))
      (takes : σ.writer.takes (reply.parts host.newLine) = (true, writer)) :
      StrictPass host now σ (.ok command.isInvalid ⟨core, r, writer⟩)
  | refused (command : Command) (r : Reader) (reply : Reply) (core : Core) (writer : Writer)
      (pending : Str) (read : nextCommand σ.sessionId σ.reader = (some command, r))
      (exec : execute host now σ.toCore command = some (reply, core))
      (takes : σ.writer.takes (reply.parts host.newLine) = (false, writer)) :
      StrictPass host now σ
        (.error encoderException ⟨core, r, { writer with pending := pending }⟩)

/-- A pass reads a command, executes it, and sends as much of the reply as the encoder takes. -/
theorem loopBody_strict (host : Host) (now : DateTime) (σ : State Writer) :
    StrictPass host now σ (loopBody (host.streaming fun _ => none) now σ) := by
  cases read : nextCommand σ.sessionId σ.reader with
  | mk command r =>
    cases command with
    | none =>
      rw [loopBody_ended _ now read]
      exact .ended r read
    | some command =>
      cases exec : execute host now σ.toCore command with
      | none =>
        rw [loopBody_raised (host.streaming fun _ => none) now read exec]
        exact .raised command r read exec
      | some result =>
        obtain ⟨reply, core⟩ := result
        obtain ⟨guard, -, hbody⟩ := loopBody_replied (host.streaming fun _ => none) now read exec
        have hsend : reply.send (host.streaming fun _ => none)
            { σ with toCore := core, reader := r } = _ := send_sentBy reply σ.writer
        rw [hbody]
        cases htakes : σ.writer.takes (reply.parts host.newLine) with
        | mk all writer =>
          rw [htakes] at hsend
          cases all with
          | true =>
            have hrun : guard.run (host.streaming fun _ => none)
                (reply.send (host.streaming fun _ => none))
                { σ with toCore := core, reader := r } = .ok () ⟨core, r, writer⟩ := by
              cases guard <;> simp only [Guard.run, tryCatch_run, hsend, sentBy]
            rw [hrun]
            exact .sent command r reply core writer read exec htakes
          | false =>
            obtain ⟨pending, hrun⟩ := @guard_refused host core r _ _ _ hsend
              (takes_refuses htakes) guard
            rw [hrun]
            exact .refused command r reply core writer pending read exec htakes

section
variable {host : Host} {sent : Str} {reply : Reply}

theorem takes_encodable (h : reply.Encodable) :
    Writer.takes ⟨[], none, sent⟩ (reply.parts host.newLine) =
      (true, ⟨[], none, sent ++ reply.text host.newLine⟩) := by
  have htext := Utf16.feed_wellFormed ((encodable_iff host reply).mp h)
  rw [← parts_flatten] at htext ⊢
  exact takes_all htext

/-- The first line of a reply has left the encoder, even if the rest is refused. -/
theorem takes_word {writer : Writer} {all : Bool}
    (h : Writer.takes .fresh (reply.parts host.newLine) = (all, writer)) :
    reply.word ++ host.newLine <+: writer.delivered := by
  obtain ⟨texts, hparts⟩ := parts_word host.newLine reply
  have hword : WellFormed (reply.word ++ host.newLine) := by
    refine WellFormed.append ?_ (newLine_wellFormed host)
    cases reply <;> exact wellFormed_lit _
  have hwrite : Writer.write (fun _ => none) (reply.word ++ host.newLine) .fresh =
      (none, ⟨[], none, reply.word ++ host.newLine⟩) :=
    TextWriter.write_wellFormed ⟨rfl, rfl⟩ hword
  rw [hparts, Writer.takes, hwrite] at h
  exact TextWriter.takes_delivered h

/-- While half a character is held back, nothing of a reply leaves the encoder. -/
theorem takes_held {u : UInt16} (reply : Reply) :
    ∃ pending, Writer.takes ⟨[], some u, sent⟩ (reply.parts host.newLine) =
      (false, ⟨pending, some u, sent⟩) := by
  obtain ⟨texts, hparts⟩ := parts_word host.newLine reply
  have hrefused : Writer.Refuses ⟨[], some u, sent⟩ (reply.word ++ host.newLine) := by
    cases reply <;> rfl
  rw [hparts, Writer.takes, TextWriter.write_refused _ hrefused]
  exact ⟨_, rfl⟩

/-- Only a reply that can be encoded leaves the writer clean. -/
theorem encodable_of_takes (h : Writer.takes ⟨[], none, sent⟩ (reply.parts host.newLine) =
    (true, ⟨[], none, sent ++ reply.text host.newLine⟩)) : reply.Encodable := by
  rw [encodable_iff host, ← Utf16.feed_eq_iff, ← parts_flatten]
  cases hfeed : feed none (reply.parts host.newLine).flatten with
  | none =>
    obtain ⟨taken, pending, held, htakes, -⟩ := @takes_refused _ none sent hfeed
    rw [htakes] at h
    cases h
  | some held =>
    rw [takes_all hfeed] at h
    exact congrArg some (congrArg Writer.held (Prod.mk.inj h).2)

end

end NetServices.SDServer
