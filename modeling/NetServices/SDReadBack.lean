import NetServices.SDDisclosure
import NetServices.SDProcess

set_option autoImplicit false

/-!
# Posted documents are read back

What the running process stores is what the system stores, so that a document is
there exactly if it was posted. It is sent to who asks for it if it is well-formed
and the encoder of the connection holds nothing back.
-/
namespace NetServices.SDServer
open Utf16 (Str lit WellFormed)

namespace Process

variable {κ : Type} {host : Host} [DecidableEq κ] {p : Process κ}

/-- The process goes on, and a connection with session `n` is about to read the command. -/
structure Requests (p : Process κ) (c : κ) (n : UInt64) (command : Command) : Prop where
  going : p.crashed = false
  requests : p.toSystem.Requests c n command

/-- The step posts a document `k` of session `n` with success. -/
def Posts (host : Host) (p : Process κ) (e : Event κ) (n : UInt64) (k : Str) : Prop :=
  ∃ c now content, e = .request c now ∧ p.Requests c n (.post k content) ∧
    (p.step host e).1.sent = Reply.success.text host.newLine

/-- Session `n` ends with the step: it is closed, swept away, or given out anew, which
    takes 2 ^ 64 opens. -/
def Ends (host : Host) (p : Process κ) (e : Event κ) (n : UInt64) : Prop :=
  ((p.step host e).1.sent = (Reply.closed n).text host.newLine ∨
    (∃ now, e = .sweep now) ∧ n ∈ p.table.sessions ∧ n ∉ (p.step host e).2.table.sessions) ∨
    (p.step host e).1.Opens host.newLine n

/-- Document `v` was posted with success as `k` in session `n`, and since then the name
    was not posted again and the session has not ended. -/
def Posted (host : Host) (p : Process κ) (events : List (Event κ)) (n : UInt64) (k v : Str) :
    Prop :=
  ∃ before c now after, events = before ++ .request c now :: after ∧
    host.startsWithSlash k = false ∧
    (Machine.final (step host) p before).Requests c n (.post k v) ∧
    ((Machine.final (step host) p before).step host (.request c now)).1.sent =
      Reply.success.text host.newLine ∧
    Machine.Every (step host) (fun p e => ¬ p.Ends host e n ∧ ¬ p.Posts host e n k)
      (Machine.final (step host) p (before ++ [.request c now])) after

omit [DecidableEq κ] in
/-- Only the text of a reply without a text of its own leaves the encoder as that text. -/
theorem leaving_eq_iff {reply reply' : Reply}
    (hreply : (∃ id, reply = .accepted id ∨ reply = .closed id) ∨ reply = .success) :
    leaving (reply'.text host.newLine) = reply.text host.newLine ↔
      reply'.text host.newLine = reply.text host.newLine := by
  constructor
  · intro h
    by_cases hencodable : reply'.Encodable
    · rwa [leaving_wellFormed ((encodable_iff host reply').mp hencodable)] at h
    · have hdrop : (reply'.text host.newLine).dropLast = reply.text host.newLine := by
        rwa [leaving, if_neg fun hfeed =>
          hencodable ((encodable_iff host reply').mpr (Utf16.feed_eq_iff.mp hfeed))] at h
      obtain ⟨a, b, rest, htext⟩ : ∃ a b rest, reply'.text host.newLine = a :: b :: rest := by
        cases reply' <;> exact ⟨_, _, _, rfl⟩
      have hhead : some reply'.letter = some reply.letter := by
        rw [← Reply.text_head host.newLine reply, ← hdrop, ← Reply.text_head host.newLine reply',
          htext]
        rfl
      cases reply' with
      | accepted id | closed id | success => exact absurd trivial hencodable
      | rejected text | error text =>
        rcases hreply with ⟨id, rfl | rfl⟩ | rfl <;> simp [Reply.letter] at hhead
      | document name content =>
        rcases hreply with ⟨id, rfl | rfl⟩ | rfl
        · simp [Reply.letter] at hhead
        · simp [Reply.letter] at hhead
        · have hlength := congrArg List.length hdrop
          have hpos := TextReader.newLine_pos host.isNewLine
          simp only [List.length_dropLast, Reply.text, List.length_append] at hlength
          omega
  · intro h
    rw [h]
    refine leaving_wellFormed ((encodable_iff host reply).mp ?_)
    rcases hreply with ⟨id, rfl | rfl⟩ | rfl <;> trivial

/-- As long as the process goes on, it sends a reply without a text of its own when the
    system does. -/
theorem sent_eq_iff {e : Event κ} {reply : Reply} (h : (p.step host e).2.crashed = false)
    (hreply : (∃ id, reply = .accepted id ∨ reply = .closed id) ∨ reply = .success) :
    (p.step host e).1.sent = reply.text host.newLine ↔
      (p.toSystem.step host e).1.sent = reply.text host.newLine := by
  rw [(step_toSystem h).2]
  have hs := System.step_stepped host p.toSystem e
  generalize (p.toSystem.step host e).1 = answer at hs
  generalize (p.toSystem.step host e).2 = sys' at hs
  cases hs with
  | ended | silent | swept => exact Iff.rfl
  | executed => exact leaving_eq_iff hreply

/-- As long as the process goes on, session `n` ends in it when it ends in the system. -/
theorem ends_iff {e : Event κ} {n : UInt64} (h : (p.step host e).2.crashed = false) :
    p.Ends host e n ↔ p.toSystem.Ends host e n := by
  have hclosed := sent_eq_iff h (.inl ⟨n, .inr rfl⟩)
  have haccepted := sent_eq_iff h (.inl ⟨n, .inl rfl⟩)
  obtain ⟨hsys, hanswer⟩ := step_toSystem h
  have hline := congrArg Answer.line hanswer
  rw [Ends, System.Ends, System.Kills, Answer.Opens, Answer.Opens, hclosed, haccepted, hsys, hline]

theorem posts_iff {e : Event κ} {n : UInt64} {k : Str} (h : (p.step host e).2.crashed = false) :
    p.Posts host e n k ↔ p.toSystem.Posts host e n k := by
  rw [Posts, System.Posts, sent_eq_iff h (.inr rfl)]
  constructor
  · rintro ⟨c, now, content, he, hrequest, hsent⟩
    exact ⟨c, now, content, he, hrequest.requests, hsent⟩
  · rintro ⟨c, now, content, he, hrequest, hsent⟩
    exact ⟨c, now, content, he, ⟨running_of_step h, hrequest⟩, hsent⟩

/-- In a run after which the process goes on, the same documents were posted as in the run
    of the system. -/
theorem posted_iff {events : List (Event κ)} {n : UInt64} {k v : Str}
    (h : (Machine.final (step host) p events).crashed = false) :
    Posted host p events n k v ↔ System.Posted host p.toSystem events n k v := by
  have hkept (p : Process κ) (e : Event κ) (hstep : (p.step host e).2.crashed = false) :
      (¬ p.Ends host e n ∧ ¬ p.Posts host e n k) ↔
        (¬ p.toSystem.Ends host e n ∧ ¬ p.toSystem.Posts host e n k) := by
    rw [ends_iff hstep, posts_iff hstep]
  unfold Posted System.Posted
  refine exists_congr fun before => exists_congr fun c => exists_congr fun now =>
    exists_congr fun after => and_congr_right fun hevents => ?_
  have hruns : events = (before ++ [.request c now]) ++ after := by
    rw [hevents, List.append_assoc]
    rfl
  rw [hruns, Machine.final_append] at h
  have hposted := crashed_final h
  have hevery := @every_toSystem κ _ host _ (fun p e => ¬ p.Ends host e n ∧ ¬ p.Posts host e n k)
    (fun sys e => ¬ sys.Ends host e n ∧ ¬ sys.Posts host e n k) hkept _ h
  rw [final_toSystem hposted] at hevery
  rw [Machine.final_append] at hposted
  have hstep :
      ((Machine.final (step host) p before).step host (.request c now)).2.crashed = false :=
    hposted
  have hbefore := running_of_step hstep
  rw [sent_eq_iff hstep (.inr rfl), hevery, final_toSystem hbefore]
  refine and_congr_right fun _ => and_congr_left fun _ => ⟨fun hr => ?_, fun hr => ⟨hbefore, ?_⟩⟩
  · rw [← final_toSystem hbefore]
    exact hr.requests
  · rw [final_toSystem hbefore]
    exact hr

/-- A document that was not in the table is there exactly if it was posted. -/
theorem value_posted_iff {events : List (Event κ)} {n : UInt64} {k v : Str}
    (hnone : p.table.value n k = none)
    (h : (Machine.final (step host) p events).crashed = false) :
    (Machine.final (step host) p events).table.value n k = some v ↔ Posted host p events n k v := by
  rw [posted_iff h, final_toSystem h]
  exact System.value_posted_iff host hnone events

/-- What a request is answered has left the encoder of its reply. -/
theorem Requests.sent {c : κ} {n : UInt64} {command : Command} (h : p.Requests c n command)
    {now : DateTime} {result : Reply × Core}
    (hexec : execute host now (p.core c) command = some result) : ∃ all writer,
    (p.state c).writer.takes (result.1.parts host.newLine) = (all, writer) ∧
      (p.step host (.request c now)).1.sent = writer.delivered := by
  obtain ⟨hp, hc, rfl, hread⟩ := h
  obtain ⟨r, hnext⟩ : ∃ r, nextCommand (p.conns c).sessionId (p.conns c).reader =
      (some command, r) := ⟨_, Prod.ext hread rfl⟩
  rw [step_request now hp hc, hnext]
  simp only [hexec]
  cases (p.state c).writer.takes (result.1.parts host.newLine) with
  | mk all writer => cases all <;> exact ⟨_, writer, rfl, rfl⟩

/-- A reply that can be encoded is sent whole unless something is held back. -/
theorem Requests.replied {c : κ} {n : UInt64} {command : Command} (h : p.Requests c n command)
    {now : DateTime} {result : Reply × Core}
    (hexec : execute host now (p.core c) command = some result) (hheld : p.held c = none)
    (hencodable : result.1.Encodable) :
    (p.step host (.request c now)).1.sent = result.1.text host.newLine := by
  obtain ⟨all, writer, htakes, hsent⟩ := h.sent hexec
  rw [state, hheld] at htakes
  obtain ⟨-, rfl⟩ := Prod.mk.inj (htakes.symm.trans (takes_encodable hencodable))
  exact hsent

/-- A get is sent a document exactly if that is what is stored and the encoder takes it. -/
theorem get_document_iff {d : κ} {now : DateTime} {n : UInt64} {k v : Str} (hn : n ≠ 0)
    (hk : k ≠ []) (h : p.Requests d n (.get k)) :
    (p.step host (.request d now)).1.sent = (Reply.document k v).text host.newLine ↔
      v ≠ [] ∧ p.held d = none ∧ WellFormed k ∧ WellFormed v ∧ p.table.value n k = some v := by
  obtain rfl : (p.core d).sessionId = n := h.requests.session
  obtain ⟨all, writer, htakes, hsent⟩ := @Requests.sent κ host _ p d _ _ h now _ rfl
  have hstored := @SDServer.get_document_iff (p.core d) now k v hn hk
  rw [hsent]
  cases hheld : p.held d with
  | some u =>
    obtain ⟨pending, hrefused⟩ := @takes_held host [u] u ((p.core d).get now k).1
    rw [state, hheld] at htakes
    obtain ⟨-, rfl⟩ := Prod.mk.inj (htakes.symm.trans hrefused)
    exact iff_of_false (fun h => nomatch h) fun h => nomatch h.2.1
  | none =>
    rw [state, hheld] at htakes
    constructor
    · intro hdocument
      obtain ⟨hbegins, hwell⟩ := TextWriter.takes_fresh htakes
      rw [hdocument, parts_flatten] at hbegins
      rw [hdocument] at hwell
      obtain ⟨hname, hcontent⟩ := (encodable_iff host _).mpr hwell
      rcases get_reply now (p.core d) k with ⟨w, hreply⟩ | ⟨message, hreply⟩
      · rw [hreply] at hbegins
        obtain rfl := document_of_prefix hbegins
        obtain ⟨hv, hvalue⟩ := hstored.mp hreply
        exact ⟨hv, rfl, hname, hcontent, hvalue⟩
      · rw [hreply] at hbegins
        obtain ⟨more, hmore⟩ := hbegins
        have hhead := congrArg List.head? hmore
        rw [List.head?_append, Reply.text_head, Reply.text_head] at hhead
        cases hhead
    · rintro ⟨hv, -, hname, hcontent, hvalue⟩
      have hreply := hstored.mpr ⟨hv, hvalue⟩
      have hencodable : ((p.core d).get now k).1.Encodable := by
        rw [hreply]
        exact ⟨hname, hcontent⟩
      rw [← hsent, h.replied rfl hheld hencodable, hreply]

/-- A get is sent a document exactly if that is what was last posted under the name in the
    session, the session has not ended since, and the encoder of the connection holds
    nothing back and takes the document. -/
theorem document_sent_iff (host : Host) (sessionTimeout : ℤ) (inputs : κ → TextReader.Reader)
    (events : List (Event κ)) (d : κ) (now : DateTime) (n : UInt64) (k v : Str) (hn : n ≠ 0)
    (hk : k ≠ [])
    (hget : (Machine.final (step host) (fresh sessionTimeout inputs) events).Requests d n
      (.get k)) :
    ((Machine.final (step host) (fresh sessionTimeout inputs) events).step host
      (.request d now)).1.sent = (Reply.document k v).text host.newLine ↔
      v ≠ [] ∧ (Machine.final (step host) (fresh sessionTimeout inputs) events).held d = none ∧
        WellFormed k ∧ WellFormed v ∧ Posted host (fresh sessionTimeout inputs) events n k v := by
  have hnone : (fresh sessionTimeout inputs).table.value n k = none :=
    System.fresh_value sessionTimeout inputs n k
  rw [get_document_iff hn hk hget, value_posted_iff hnone hget.going]

/-- What one connection is sent was posted by the other one, in the session they share. -/
theorem document_sent_iff_resumed :
    let inputs : Bool → TextReader.Reader := fun c =>
      if c then ⟨lit "resume\n1\nget\na\n", []⟩ else ⟨lit "open\npost\na\n2\nxy", []⟩
    let events := [Event.request false 0, .request true 0, .request false 1, .sweep 2]
    lit "xy" ≠ [] ∧ (Machine.final (step .unix) (fresh 100 inputs) events).held true = none ∧
      WellFormed (lit "a") ∧ WellFormed (lit "xy") ∧
      Posted .unix (fresh 100 inputs) events 1 (lit "a") (lit "xy") := by
  intro inputs events
  exact (document_sent_iff .unix 100 inputs events true 3 1 (lit "a") (lit "xy") (by decide)
    (by decide) ⟨by decide, by decide, by decide, by decide⟩).mp (by decide)

/-- A plain document that was posted with success is read back on every connection with
    its session, until the session ends or the name is posted again, unless the encoder of
    the connection holds half a character back. An empty document is answered with an
    error. -/
theorem posted_document_read_back (host : Host) (sessionTimeout : ℤ)
    (inputs : κ → TextReader.Reader) (before after : List (Event κ)) (c d : κ)
    (now now' : DateTime) (n : UInt64) (k v : Str) (hn : n ≠ 0) (hk : k ≠ [])
    (hplain : host.startsWithSlash k = false) (hname : WellFormed k) (hcontent : WellFormed v)
    (hpost : (Machine.final (step host) (fresh sessionTimeout inputs) before).Requests c n
      (.post k v))
    (hsuccess : ((Machine.final (step host) (fresh sessionTimeout inputs) before).step host
      (.request c now)).1.sent = Reply.success.text host.newLine)
    (hafter : Machine.Every (step host) (fun p e => ¬ p.Ends host e n ∧ ¬ p.Posts host e n k)
      (Machine.final (step host) (fresh sessionTimeout inputs) (before ++ [.request c now])) after)
    (hget : (Machine.final (step host) (fresh sessionTimeout inputs)
      (before ++ .request c now :: after)).Requests d n (.get k))
    (hheld : (Machine.final (step host) (fresh sessionTimeout inputs)
      (before ++ .request c now :: after)).held d = none) :
    ((Machine.final (step host) (fresh sessionTimeout inputs)
      (before ++ .request c now :: after)).step host (.request d now')).1.sent =
      if v = [] then (Reply.error (lit "Document was empty or does not exist")).text host.newLine
      else (Reply.document k v).text host.newLine := by
  have hnone : (fresh sessionTimeout inputs).table.value n k = none :=
    System.fresh_value sessionTimeout inputs n k
  have hvalue := (value_posted_iff hnone hget.going).mpr
    ⟨before, c, now, after, rfl, hplain, hpost, hsuccess, hafter⟩
  generalize Machine.final (step host) (fresh sessionTimeout inputs)
    (before ++ .request c now :: after) = p at hvalue hget hheld ⊢
  obtain rfl : (p.core d).sessionId = n := hget.requests.session
  have hreply := get_stored now' hn hk hvalue
  have hencodable : ((p.core d).get now' k).1.Encodable := by
    rw [hreply]
    split_ifs
    · exact Utf16.wellFormed_lit _
    · exact ⟨hname, hcontent⟩
  rw [hget.replied rfl hheld hencodable, hreply]
  split_ifs <;> rfl

/-- One connection opens session 1 and posts a document, and another one resumes the
    session and gets it after a sweep. -/
theorem posted_document_read_back_resumed :
    let inputs : Bool → TextReader.Reader := fun c =>
      if c then ⟨lit "resume\n1\nget\na\n", []⟩ else ⟨lit "open\npost\na\n2\nxy", []⟩
    let before := [Event.request false 0, Event.request true 0]
    ((Machine.final (step .unix) (fresh 100 inputs)
      (before ++ [.request false 1, .sweep 2])).step .unix (.request true 3)).1.sent =
        (Reply.document (lit "a") (lit "xy")).text Host.unix.newLine := by
  intro inputs before
  refine posted_document_read_back .unix 100 inputs before [.sweep 2] false true 1 3 1 (lit "a")
    (lit "xy") (by decide) (by decide) (by decide) (Utf16.wellFormed_lit _)
    (Utf16.wellFormed_lit _) ⟨by decide, by decide, by decide, by decide⟩ (by decide)
    ⟨⟨?_, ?_⟩, trivial⟩ ⟨by decide, by decide, by decide, by decide⟩ (by decide)
  · rintro ((hclosed | ⟨-, -, hremoved⟩) | ⟨hline, -⟩)
    · exact absurd hclosed (by decide)
    · exact absurd hremoved (by decide)
    · exact absurd hline (by decide)
  · rintro ⟨c, now, content, hevent, -⟩
    cases hevent

/-- An empty document is posted with success and not read back. -/
theorem empty_document_not_read_back :
    let inputs : Unit → TextReader.Reader := fun _ => ⟨lit "open\npost\na\n0\nget\na\n", []⟩
    let p := Machine.final (step .unix) (fresh 100 inputs) [.request () 0]
    let (answer, p') := p.step .unix (.request () 1)
    p.Requests () 1 (.post (lit "a") []) ∧ answer.sent = Reply.success.text Host.unix.newLine ∧
      p'.Requests () 1 (.get (lit "a")) ∧
      (p'.step .unix (.request () 2)).1.sent ≠
        (Reply.document (lit "a") []).text Host.unix.newLine :=
  ⟨⟨by decide, by decide, by decide, by decide⟩, by decide,
    ⟨by decide, by decide, by decide, by decide⟩, by decide⟩

end Process
end NetServices.SDServer
