import NetServices.SDDocuments
import NetServices.SessionHistory

set_option autoImplicit false

/-!
# Nothing but posted documents is sent

A get is answered with a document exactly if the document is what was last
posted under that name in that session, and the session has not ended since:
no document is made up, comes back from the past or comes from another session.
-/
namespace NetServices.SDServer
open Utf16 (Str)

/-- The text of a document determines its content, and is not the beginning of another. -/
theorem document_of_prefix {host : Host} {name v v' : Str}
    (h : (Reply.document name v).text host.newLine <+:
      (Reply.document name v').text host.newLine) : v = v' := by
  obtain ⟨more, hmore⟩ := h
  simp only [Reply.text, List.append_assoc] at hmore
  have hlines := List.append_cancel_left (List.append_cancel_left (List.append_cancel_left
    (List.append_cancel_left hmore)))
  have hread (w rest : Str) := TextReader.splitLine_newLine (Numerals.decimal_isLine w.length)
    host.isNewLine rest
  have hsplit := hread v (v ++ more)
  rw [hlines, hread v' v'] at hsplit
  obtain ⟨hsize, hrest⟩ := Prod.mk.inj hsplit
  have hlength := decimal_injective hsize
  rw [hrest, List.length_append] at hlength
  obtain rfl : more = [] := List.length_eq_zero_iff.mp (by omega)
  rw [hrest, List.append_nil]

theorem document_of_text {host : Host} {name v v' : Str}
    (h : (Reply.document name v).text host.newLine = (Reply.document name v').text host.newLine) :
    v = v' :=
  document_of_prefix ⟨[], (List.append_nil _).trans h⟩

theorem success_of_text {host : Host} {reply : Reply}
    (h : reply.text host.newLine = Reply.success.text host.newLine) : reply = .success := by
  have hhead := congrArg List.head? h
  rw [Reply.text_head, Reply.text_head] at hhead
  cases reply with
  | success => rfl
  | document name v =>
    have hrest := List.append_right_eq_self.mp h
    have hname := (List.append_eq_nil_iff.mp hrest).1
    have hpos := TextReader.newLine_pos host.isNewLine
    rw [(List.append_eq_nil_iff.mp hname).2] at hpos
    cases hpos
  | _ => simp [Reply.letter] at hhead

/-- Where a document comes from that is there after a command: it was there, in a session
    that the command leaves alone, or the command posts it. -/
theorem executed_origin {host : Host} {now : DateTime} {core core' : Core} {command : Command}
    {reply : Reply} (h : Executed host now core command reply core') {n : UInt64} {k v : Str}
    (hv : core'.table.value n k = some v) :
    (core.table.value n k = some v ∧ ¬ (command = .open ∧ reply = .accepted n) ∧
      (host.startsWithSlash k = false → reply = .success → core.sessionId = n →
        ∀ content, command ≠ .post k content)) ∨
    command = .post k v ∧ reply = .success ∧ core.sessionId = n ∧
      host.startsWithSlash k = false := by
  cases h with
  | opened fresh =>
    have hinsert : (core.table.openSession now).2.value n k =
        if n = core.table.nextSessionId then (Session.new now).values.lookup k
        else core.table.value n k :=
      SessionTable.value_insert core.table.nextSessionId n (.new now) k
    rw [hinsert] at hv
    split_ifs at hv with hn
    · cases hv
    · exact .inl ⟨hv, fun heq => hn (Reply.accepted.inj heq.2).symm, nofun⟩
  | closed id mem =>
    rw [SessionTable.value_erase] at hv
    split_ifs at hv with hn
    exact .inl ⟨hv, nofun, nofun⟩
  | read name session entry reply answer =>
    rw [SessionTable.value_touch entry] at hv
    exact .inl ⟨hv, nofun, fun _ _ _ _ heq => nomatch heq⟩
  | stored name content session entry plain =>
    rw [SessionTable.value_put entry] at hv
    split_ifs at hv with hboth
    · obtain ⟨rfl, rfl⟩ := hboth
      obtain rfl := Option.some.inj hv
      exact .inr ⟨rfl, rfl, rfl, plain⟩
    · refine .inl ⟨hv, nofun, fun _ _ hid content' heq => hboth ⟨hid.symm, ?_⟩⟩
      exact (Command.post.inj heq).1.symm
  | filed name content reply files slash answer =>
    refine .inl ⟨hv, nofun, fun hplain _ _ content' heq => ?_⟩
    rw [(Command.post.inj heq).1, hplain] at slash
    cases slash
  | resumed | rejected => exact .inl ⟨hv, nofun, nofun⟩
  | refused => exact .inl ⟨hv, fun h => (nomatch h.2), nofun⟩

namespace System

variable {κ : Type} {host : Host} [DecidableEq κ]

/-- Document `v` was posted with success as `k` in session `n`, and since then the name
    was not posted again and the session has not ended. -/
def Posted (host : Host) (sys : System κ) (events : List (Event κ)) (n : UInt64) (k v : Str) :
    Prop :=
  ∃ before c now after, events = before ++ .request c now :: after ∧
    host.startsWithSlash k = false ∧
    (Machine.final (step host) sys before).Requests c n (.post k v) ∧
    ((Machine.final (step host) sys before).step host (.request c now)).1.sent =
      Reply.success.text host.newLine ∧
    Machine.Every (step host) (fun sys e => ¬ sys.Ends host e n ∧ ¬ sys.Posts host e n k)
      (Machine.final (step host) sys (before ++ [.request c now])) after

/-- Only plain names are stored. -/
theorem value_plain {sys : System κ} {n : UInt64} {k v : Str} (hnone : sys.table.value n k = none)
    (events : List (Event κ))
    (hv : (Machine.final (step host) sys events).table.value n k = some v) :
    host.startsWithSlash k = false := by
  refine Machine.final_invariant (step host)
    (I := fun sys => ∀ v, sys.table.value n k = some v → host.startsWithSlash k = false)
    (fun sys e h v hv => ?_) (fun v hv => ?_) events v hv
  · have hs := step_stepped host sys e
    generalize sys.step host e = result at *
    obtain ⟨answer, sys'⟩ := result
    cases hs with
    | ended | silent => exact h v hv
    | swept now =>
      have hmem := SessionTable.mem_of_value hv
      exact h v ((SessionTable.value_sweep k hmem).symm.trans hv)
    | executed c now command reply core r ended running read effect =>
      rcases executed_origin effect hv with ⟨hold, -⟩ | ⟨-, -, -, hplain⟩
      · exact h v hold
      · exact hplain
  · rw [hnone] at hv
    cases hv

/-- Where a plain document comes from that is there after a step. -/
theorem step_origin {sys : System κ} {e : Event κ} {n : UInt64} {k v : Str}
    (hplain : host.startsWithSlash k = false) (hv : (sys.step host e).2.table.value n k = some v) :
    (sys.table.value n k = some v ∧ ¬ sys.Ends host e n ∧ ¬ sys.Posts host e n k) ∨
      ∃ c now, e = .request c now ∧ sys.Requests c n (.post k v) ∧
        (sys.step host e).1.sent = Reply.success.text host.newLine := by
  have hmem := SessionTable.mem_of_value hv
  have hkills : ¬ sys.Kills host e n := fun hkills => (kills_removes hkills).2 hmem
  have hs := step_stepped host sys e
  unfold Ends Posts
  generalize sys.step host e = result at *
  obtain ⟨answer, sys'⟩ := result
  have hempty : ([] : Str) ≠ Reply.success.text host.newLine := nofun
  cases hs with
  | ended | silent =>
    refine .inl ⟨hv, ?_, ?_⟩
    · rintro (hkilled | ⟨-, hsent⟩)
      · exact hkills hkilled
      · cases hsent
    · rintro ⟨-, -, -, -, -, hsent⟩
      exact hempty hsent
  | swept now =>
    refine .inl ⟨(SessionTable.value_sweep k hmem).symm.trans hv, ?_, ?_⟩
    · rintro (hkilled | ⟨hline, -⟩)
      · exact hkills hkilled
      · cases hline
    · rintro ⟨c, t, content, hevent, -⟩
      cases hevent
  | executed c now command reply core r ended running read effect =>
    rcases executed_origin effect hv with ⟨hold, hopen, hpost⟩ | ⟨rfl, rfl, rfl, -⟩
    · refine .inl ⟨hold, ?_, ?_⟩
      · rintro (hkilled | hopens)
        · exact hkills hkilled
        · obtain ⟨rfl, -⟩ := (isOpen_executed host reply read).mp (isOpen_of_opens hopens)
          exact hopen ⟨rfl, accepted_of_text hopens.2⟩
      · rintro ⟨c', t, content, hevent, hrequest, hsent⟩
        obtain ⟨rfl, rfl⟩ := Event.request.inj hevent
        have hread := hrequest.read
        rw [← hrequest.session, read] at hread
        exact hpost hplain (success_of_text hsent) hrequest.session content (Option.some.inj hread)
    · exact .inr ⟨c, now, rfl, ⟨running, rfl, congrArg Prod.fst read⟩, rfl⟩

/-- A get is sent a document exactly if that is what is stored. -/
theorem get_document_iff {sys : System κ} {d : κ} {now : DateTime} {n : UInt64} {k v : Str}
    (hn : n ≠ 0) (hk : k ≠ []) (hrequest : sys.Requests d n (.get k)) :
    (sys.step host (.request d now)).1.sent = (Reply.document k v).text host.newLine ↔
      v ≠ [] ∧ sys.table.value n k = some v := by
  obtain rfl : (sys.core d).sessionId = n := hrequest.session
  rw [(hrequest.step rfl).1, ← core_table sys d, ← SDServer.get_document_iff now hn hk]
  rcases get_reply now (sys.core d) k with ⟨w, hreply⟩ | ⟨message, hreply⟩
  · rw [hreply]
    exact ⟨fun htext => by rw [document_of_text htext], fun h => by rw [h]⟩
  · rw [hreply]
    exact iff_of_false (fun htext => nomatch congrArg List.head? htext) (fun h => nomatch h)

/-- A document that was not in the table is there exactly if it was posted. -/
theorem value_posted_iff (host : Host) {sys : System κ} {n : UInt64} {k v : Str}
    (hnone : sys.table.value n k = none) (events : List (Event κ)) :
    (Machine.final (step host) sys events).table.value n k = some v ↔
      Posted host sys events n k v := by
  constructor
  · intro hv
    have hplain := value_plain hnone events hv
    induction events using List.reverseRecOn with
    | nil => exact absurd (hnone.symm.trans hv) (Option.some_ne_none v).symm
    | append_singleton events e ih =>
      rw [Machine.final_append] at hv
      rcases step_origin hplain hv with ⟨hold, hkept⟩ | ⟨c, now, rfl, hrequest, hsent⟩
      · obtain ⟨before, c, now, after, rfl, -, hrequest, hsent, hafter⟩ := ih hold
        refine ⟨before, c, now, after ++ [e], by rw [List.append_assoc, List.cons_append], hplain,
          hrequest, hsent, (Machine.every_concat _).mpr ⟨hafter, ?_⟩⟩
        rw [← Machine.final_append, List.append_assoc]
        exact hkept
      · exact ⟨events, c, now, [], rfl, hplain, hrequest, hsent, trivial⟩
  · rintro ⟨before, c, now, after, rfl, hplain, hrequest, hsent, hafter⟩
    rw [Machine.final_append] at hafter ⊢
    exact Machine.final_of_every (step host)
      (fun sys e (hv : sys.table.value n k = some v) h => step_value hv h.1 h.2)
      (post_value hplain hrequest hsent) hafter

omit [DecidableEq κ] in
theorem fresh_value (sessionTimeout : ℤ) (inputs : κ → TextReader.Reader) (n : UInt64) (k : Str) :
    (fresh sessionTimeout inputs).table.value n k = none := rfl

end System
end NetServices.SDServer
