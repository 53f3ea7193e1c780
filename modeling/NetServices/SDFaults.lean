import NetServices.SDCommands
import NetServices.TextWriter

set_option autoImplicit false

/-!
# Replies on a connection that may fail

The send methods on a response stream with a strict encoder, over a network that
may fail at any write. A reply whose texts are well-formed leaves faults of the
network only; any other reply can raise an exception that the server cannot
report, since the encoder refuses the report too.
-/
namespace NetServices.SDServer
open Utf16 (Str lit WellFormed wellFormed_lit feed)
open TextReader (Reader)
open TextWriter (Writer encoderException)
open Numerals (decimal)
open Exceptions

/-- The platform with a stream writer on a connection that may fail. -/
def Host.streaming (host : Host) (fails : Str → Option Exn) : Env Writer :=
  { host with write := Writer.write fails }

/-- An exception that `Run` handles. -/
def Handled (e : Exn) : Prop := e.kind = .socket ∨ e.kind = .io

/-- What a network raises after which text has been sent. -/
structure Network where
  fails : Str → Option Exn
  handled : ∀ text e, fails text = some e → Handled e ∧ WellFormed e.message

/-- A reply whose texts can be sent. -/
def Reply.Encodable : Reply → Prop
  | .rejected reason => WellFormed reason
  | .document name content => WellFormed name ∧ WellFormed content
  | .error message => WellFormed message
  | _ => True

variable {host : Host}

/-- The connection with nothing pending in its writer. -/
def Ready (core : Core) (r : Reader) (σ : State Writer) : Prop :=
  σ.toCore = core ∧ σ.reader = r ∧ σ.writer.Clean

/-- A fault of the network that leaves the connection ready. -/
def Faulted (core : Core) (r : Reader) (e : Exn) (σ : State Writer) : Prop :=
  Handled e ∧ WellFormed e.message ∧ Ready core r σ

theorem newLine_wellFormed (host : Host) : WellFormed host.newLine := by
  rcases host.isNewLine with h | h
  · rw [h]
    exact wellFormed_lit "\n"
  · rw [h]
    exact wellFormed_lit "\r\n"

section

variable (network : Network) {core : Core} {r : Reader}

theorem write_ready {text : Str} (ht : WellFormed text) :
    Triple (Ready core r) (write (host.streaming network.fails) text) (fun _ => Ready core r)
      (Faulted core r) := by
  rintro σ ⟨hcore, hr, hclean⟩
  have hwrite : (host.streaming network.fails).write text σ.writer =
      (network.fails (σ.writer.sent ++ text), ⟨[], none, σ.writer.sent ++ text⟩) :=
    TextWriter.write_wellFormed hclean ht
  rw [write, hwrite]
  cases hfault : network.fails (σ.writer.sent ++ text) with
  | none => exact ⟨hcore, hr, rfl, rfl⟩
  | some e =>
    obtain ⟨hhandled, hmessage⟩ := network.handled _ e hfault
    exact ⟨hhandled, hmessage, hcore, hr, rfl, rfl⟩

theorem writeLine_ready {text : Str} (ht : WellFormed text) :
    Triple (Ready core r) (writeLine (host.streaming network.fails) text) (fun _ => Ready core r)
      (Faulted core r) :=
  write_ready network (ht.append (newLine_wellFormed host))

theorem sendError_ready {message : Str} (h : WellFormed message) :
    Triple (Ready core r) (sendError (host.streaming network.fails) message) (fun _ => Ready core r)
      (Faulted core r) :=
  (writeLine_ready network (wellFormed_lit _)).bind fun _ => writeLine_ready network h

theorem send_ready {reply : Reply} (h : reply.Encodable) :
    Triple (Ready core r) (reply.send (host.streaming network.fails)) (fun _ => Ready core r)
      (Faulted core r) := by
  cases reply with
  | accepted id | closed id =>
    exact (writeLine_ready network (wellFormed_lit _)).bind fun _ =>
      writeLine_ready network (Numerals.decimal_wellFormed _)
  | rejected reason =>
    exact (writeLine_ready network (wellFormed_lit _)).bind fun _ => writeLine_ready network h
  | success => exact writeLine_ready network (wellFormed_lit _)
  | document name content =>
    exact (writeLine_ready network (wellFormed_lit _)).bind fun _ =>
      (writeLine_ready network h.1).bind fun _ =>
        (writeLine_ready network (Numerals.decimal_wellFormed _)).bind fun _ =>
          write_ready network h.2
  | error message => exact sendError_ready network h

/-- An exception that is answered with an error leaves at most a fault of the network. -/
theorem guard_ready {m : Server Writer Unit}
    (hm : Triple (Ready core r) m (fun _ => Ready core r) (Faulted core r)) (guard : Guard) :
    Triple (Ready core r) (guard.run (host.streaming network.fails) m) (fun _ => Ready core r)
      (Faulted core r) := by
  intro σ hσ
  cases guard with
  | unguarded => exact hm σ hσ
  | answered start =>
    exact (hm σ hσ).tryCatch fun _ σ' he =>
      sendError_ready network ((wellFormed_lit start).append he.2.1) σ' he.2.2
  | rethrown =>
    exact (hm σ hσ).tryCatch fun _ σ' he =>
      (sendError_ready network he.2.1 σ' he.2.2).bind fun _ _ h => ⟨he.1, he.2.1, h⟩

end

/-- The network raises nothing until more than `n` characters have been sent. -/
def Network.SilentUpTo (network : Network) (n : ℕ) : Prop :=
  ∀ text, text.length ≤ n → network.fails text = none

theorem Network.SilentUpTo.mono {network : Network} {n m : ℕ} (h : network.SilentUpTo n)
    (hm : m ≤ n) : network.SilentUpTo m :=
  fun text htext => h text (htext.trans hm)

def Network.never : Network := ⟨fun _ => none, nofun⟩

theorem never_silent (n : ℕ) : Network.never.SilentUpTo n := fun _ _ => rfl

/-- A network that fails from the `n`-th character on. -/
def Network.failsAt (n : ℕ) : Network where
  fails text := if n ≤ text.length then some ⟨.io, []⟩ else none
  handled := by
    intro text e h
    split_ifs at h
    obtain rfl := Option.some.inj h
    exact ⟨.inr rfl, [], rfl⟩

theorem failsAt_silent {n m : ℕ} (h : m < n) : (Network.failsAt n).SilentUpTo m :=
  fun _ htext => if_neg (Nat.not_le.mpr (lt_of_le_of_lt htext h))

/-- A connection with a clean writer. -/
def clean (core : Core) (r : Reader) (sent : Str) : State Writer := ⟨core, r, ⟨[], none, sent⟩⟩

/-- On a silent network the program sends the text. -/
def Sends (network : Network) (m : Server Writer Unit) (text : Str) : Prop :=
  ∀ core r sent, network.SilentUpTo (sent ++ text).length →
    m (clean core r sent) = .ok () (clean core r (sent ++ text))

section

variable {network : Network} {m m' : Server Writer Unit} {text text' : Str}

theorem Sends.bind (hm : Sends network m text) (hm' : Sends network m' text') :
    Sends network (m >>= fun _ => m') (text ++ text') := by
  intro core r sent hsilent
  rw [← List.append_assoc] at hsilent ⊢
  have hle : (sent ++ text).length ≤ (sent ++ text ++ text').length :=
    (List.prefix_append _ _).length_le
  rw [bind_run, hm core r sent (hsilent.mono hle)]
  exact hm' core r (sent ++ text) hsilent

theorem Sends.bind_error {core : Core} {r : Reader} {sent : Str} {e : Exn} {σ : State Writer}
    (hm : Sends network m text) (hsilent : network.SilentUpTo (sent ++ text).length)
    (hm' : m' (clean core r (sent ++ text)) = .error e σ) :
    (m >>= fun _ => m') (clean core r sent) = .error e σ := by
  rw [bind_run, hm core r sent hsilent]
  exact hm'

theorem sends_write (ht : WellFormed text) :
    Sends network (write (host.streaming network.fails) text) text := by
  intro core r sent hsilent
  have hwrite : (host.streaming network.fails).write text (clean core r sent).writer =
      (network.fails (sent ++ text), ⟨[], none, sent ++ text⟩) :=
    TextWriter.write_wellFormed ⟨rfl, rfl⟩ ht
  rw [write, hwrite, hsilent _ le_rfl]
  rfl

theorem sends_writeLine (ht : WellFormed text) :
    Sends network (writeLine (host.streaming network.fails) text) (text ++ host.newLine) :=
  sends_write (ht.append (newLine_wellFormed host))

end

theorem sends_reply {network : Network} {reply : Reply} (h : reply.Encodable) :
    Sends network (reply.send (host.streaming network.fails)) (reply.text host.newLine) := by
  cases reply with
  | accepted id | closed id =>
    exact (sends_writeLine (wellFormed_lit _)).bind
      (sends_writeLine (Numerals.decimal_wellFormed _))
  | rejected reason => exact (sends_writeLine (wellFormed_lit _)).bind (sends_writeLine h)
  | success => exact sends_writeLine (wellFormed_lit _)
  | document name content =>
    exact (sends_writeLine (wellFormed_lit _)).bind ((sends_writeLine h.1).bind
      ((sends_writeLine (Numerals.decimal_wellFormed _)).bind (sends_write h.2)))
  | error message => exact (sends_writeLine (wellFormed_lit _)).bind (sends_writeLine h)

/-- The outcome is an exception that `Run` does not handle. -/
def Escapes {α : Type} (outcome : EStateM.Result Exn (State Writer) α) : Prop :=
  ∃ e σ, outcome = .error e σ ∧ ¬ Handled e

theorem encoderException_not_handled : ¬ Handled encoderException := by
  rintro (h | h) <;> cases h

section

variable {fails : Str → Option Exn} {σ : State Writer} {text : Str}

theorem write_escapes (h : σ.writer.Refuses text) : ∃ σ',
    write (host.streaming fails) text σ = .error encoderException σ' ∧
      ∀ more, σ'.writer.Refuses more := by
  have hwrite : (host.streaming fails).write text σ.writer =
      (some encoderException, { σ.writer with pending := σ.writer.pending ++ text }) :=
    TextWriter.write_refused fails h
  rw [write, hwrite]
  exact ⟨_, rfl, h.after⟩

theorem sendError_escapes {message : Str} (h : σ.writer.Refuses (lit "error")) :
    Escapes (sendError (host.streaming fails) message σ) := by
  obtain ⟨σ', hwrite, -⟩ : ∃ σ', writeLine (host.streaming fails) (lit "error") σ =
      .error encoderException σ' ∧ _ := write_escapes (h.append host.newLine)
  rw [sendError, bind_run, hwrite]
  exact ⟨encoderException, σ', rfl, encoderException_not_handled⟩

theorem guard_escapes {m : Server Writer Unit} {e : Exn} {σ' : State Writer}
    (hm : m σ = .error e σ') (h : σ'.writer.Refuses (lit "error")) (guard : Guard)
    (hguard : guard = .unguarded → ¬ Handled e) :
    Escapes (guard.run (host.streaming fails) m σ) := by
  cases guard with
  | unguarded => exact ⟨e, σ', hm, hguard rfl⟩
  | answered start =>
    simp only [Guard.run, tryCatch_run, hm]
    exact sendError_escapes h
  | rethrown =>
    have hescapes : Escapes (sendError (host.streaming fails) e.message σ') := sendError_escapes h
    obtain ⟨e', σ'', hsend, he'⟩ := hescapes
    simp only [Guard.run, tryCatch_run, hm, bind_run, hsend]
    exact ⟨e', σ'', rfl, he'⟩

end

theorem feed_newLine (host : Host) (u : UInt16) : feed (some u) host.newLine = none := by
  rcases host.isNewLine with h | h <;> rw [h] <;> rfl

/-- Ill-formed text is refused at the latest with the line break after it. -/
theorem refuses_line {core : Core} {r : Reader} {sent text : Str} (h : ¬ WellFormed text) :
    (clean core r sent).writer.Refuses (text ++ host.newLine) := by
  change feed none (text ++ host.newLine) = none
  rw [Utf16.feed_append]
  cases hfeed : feed none text with
  | none => rfl
  | some held =>
    cases held with
    | none => exact absurd (Utf16.feed_eq_iff.mp hfeed) h
    | some u => exact feed_newLine host u

theorem writeLine_escapes {fails : Str → Option Exn} {core : Core} {r : Reader} {sent text : Str}
    (h : ¬ WellFormed text) : ∃ σ,
    writeLine (host.streaming fails) text (clean core r sent) = .error encoderException σ ∧
      ∀ more, σ.writer.Refuses more :=
  write_escapes (refuses_line h)

/-- Ill-formed content is refused, or a fault of the network finds half a character left in
    the encoder. -/
theorem content_escapes (core : Core) (r : Reader) (sent : Str) {content : Str}
    (h : ¬ WellFormed content) : ∃ network : Network, network.SilentUpTo sent.length ∧ ∃ e σ,
    write (host.streaming network.fails) content (clean core r sent) = .error e σ ∧
      σ.writer.Refuses (lit "error") := by
  cases hfeed : feed none content with
  | none =>
    obtain ⟨σ, hwrite, hrefuses⟩ : ∃ σ, write (host.streaming Network.never.fails) content
        (clean core r sent) = .error encoderException σ ∧ _ := write_escapes hfeed
    exact ⟨.never, never_silent _, encoderException, σ, hwrite, hrefuses _⟩
  | some held =>
    cases held with
    | none => exact absurd (Utf16.feed_eq_iff.mp hfeed) h
    | some u =>
      have hlt : sent.length < (sent ++ content).length := by
        rw [List.length_append]
        have hpos : 0 < content.length := List.length_pos_iff.mpr fun hnil => by
          rw [hnil] at hfeed
          cases hfeed
        omega
      refine ⟨.failsAt (sent ++ content).length, failsAt_silent hlt, ⟨.io, []⟩,
        ⟨core, r, ⟨[], some u, sent ++ content⟩⟩, ?_, rfl⟩
      have hwrite : (host.streaming (Network.failsAt (sent ++ content).length).fails).write content
          (clean core r sent).writer = (some ⟨.io, []⟩, ⟨[], some u, sent ++ content⟩) := by
        simp only [Host.streaming, clean, Writer.write, List.nil_append, hfeed, Network.failsAt,
          le_refl, if_true]
      rw [write, hwrite]
      rfl

/-- Sending a reply that cannot be encoded raises on some network, and the server cannot
    report it. -/
theorem send_escapes {reply : Reply} (h : ¬ reply.Encodable) (core : Core) (r : Reader)
    (sent : Str) : ∃ network : Network, network.SilentUpTo sent.length ∧ ∃ e σ,
    reply.send (host.streaming network.fails) (clean core r sent) = .error e σ ∧
      σ.writer.Refuses (lit "error") ∧ ((∃ message, reply = .error message) → ¬ Handled e) := by
  cases reply with
  | accepted id | closed id | success => exact absurd trivial h
  | rejected reason =>
    obtain ⟨σ, hwrite, hrefuses⟩ := writeLine_escapes (r := r) h
    exact ⟨.never, never_silent _, encoderException, σ,
      (sends_writeLine (wellFormed_lit _)).bind_error (never_silent _) hwrite, hrefuses _,
      fun _ => encoderException_not_handled⟩
  | error message =>
    obtain ⟨σ, hwrite, hrefuses⟩ := writeLine_escapes (r := r) h
    exact ⟨.never, never_silent _, encoderException, σ,
      (sends_writeLine (wellFormed_lit _)).bind_error (never_silent _) hwrite, hrefuses _,
      fun _ => encoderException_not_handled⟩
  | document name content =>
    by_cases hname : WellFormed name
    · have hcontent : ¬ WellFormed content := fun hcontent => h ⟨hname, hcontent⟩
      have hsilent₁ := (List.prefix_append sent (lit "success" ++ host.newLine)).length_le
      have hsilent₂ := (List.prefix_append (sent ++ (lit "success" ++ host.newLine))
        (name ++ host.newLine)).length_le
      have hsilent₃ := (List.prefix_append (sent ++ (lit "success" ++ host.newLine) ++
        (name ++ host.newLine)) (decimal content.length ++ host.newLine)).length_le
      obtain ⟨network, hsilent, e, σ, hwrite, hrefuses⟩ := content_escapes core r
        (sent ++ (lit "success" ++ host.newLine) ++ (name ++ host.newLine) ++
          (decimal content.length ++ host.newLine)) hcontent
      exact ⟨network, hsilent.mono (hsilent₁.trans (hsilent₂.trans hsilent₃)), e, σ,
        (sends_writeLine (wellFormed_lit _)).bind_error (hsilent.mono (hsilent₂.trans hsilent₃))
          ((sends_writeLine hname).bind_error (hsilent.mono hsilent₃)
            ((sends_writeLine (Numerals.decimal_wellFormed _)).bind_error hsilent hwrite)),
        hrefuses, by rintro ⟨message, ⟨⟩⟩⟩
    · obtain ⟨σ, hwrite, hrefuses⟩ := writeLine_escapes (r := r) hname
      have hnext : (writeLine (host.streaming Network.never.fails) name >>= fun _ =>
          writeLine (host.streaming Network.never.fails) (decimal content.length) >>= fun _ =>
            write (host.streaming Network.never.fails) content) (clean core r
              (sent ++ (lit "success" ++ host.newLine))) = .error encoderException σ := by
        rw [bind_run, hwrite]
      exact ⟨.never, never_silent _, encoderException, σ,
        (sends_writeLine (wellFormed_lit _)).bind_error (never_silent _) hnext, hrefuses _,
        by rintro ⟨message, ⟨⟩⟩⟩

end NetServices.SDServer
