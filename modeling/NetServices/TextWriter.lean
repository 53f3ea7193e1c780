import NetServices.Exceptions

set_option autoImplicit false

/-!
# Writing text through a strict encoder

A writer that is flushed after every write. Text that the encoder refuses stays
in the writer, so that the next write raises again. The connection below may
fail at any write, depending on all that was sent. A write is one step here, where
the stream writer hands a long text on in pieces of its buffer, so that it can have
sent some of a text that it refuses. `sent` counts half a character that the
encoder holds back.
-/
namespace NetServices.TextWriter
open Utf16 (Str WellFormed feed lit)

structure Writer where
  pending : Str
  held : Option UInt16
  sent : Str

def Writer.fresh : Writer := ⟨[], none, []⟩

def encoderException : Exn where
  kind := .encoderFallback
  message := lit "Unable to translate Unicode character to specified code page."

def Writer.write (fails : Str → Option Exn) (text : Str) (w : Writer) : Option Exn × Writer :=
  let chars := w.pending ++ text
  match feed w.held chars with
  | none => (some encoderException, { w with pending := chars })
  | some held => (fails (w.sent ++ chars), ⟨[], held, w.sent ++ chars⟩)

/-- The encoder is between two characters. -/
def Writer.Clean (w : Writer) : Prop := w.pending = [] ∧ w.held = none

/-- Well-formed text raises only what the connection raises. -/
theorem write_wellFormed {fails : Str → Option Exn} {text : Str} {w : Writer} (hw : w.Clean)
    (ht : WellFormed text) :
    w.write fails text = (fails (w.sent ++ text), ⟨[], none, w.sent ++ text⟩) := by
  obtain ⟨hpending, hheld⟩ := hw
  simp only [Writer.write, hpending, hheld, List.nil_append, Utf16.feed_wellFormed ht]

/-- The text would leave something in the writer that cannot be encoded. -/
def Writer.Refuses (w : Writer) (text : Str) : Prop := feed w.held (w.pending ++ text) = none

theorem write_refused (fails : Str → Option Exn) {text : Str} {w : Writer} (h : w.Refuses text) :
    w.write fails text = (some encoderException, { w with pending := w.pending ++ text }) := by
  unfold Writer.Refuses at h
  simp only [Writer.write, h]

theorem Writer.Refuses.append {w : Writer} {text : Str} (h : w.Refuses text) (more : Str) :
    w.Refuses (text ++ more) := by
  unfold Writer.Refuses at h ⊢
  rw [← List.append_assoc, Utf16.feed_append, h, Option.bind_none]

/-- After a text that was refused, everything is refused. -/
theorem Writer.Refuses.after {w : Writer} {text : Str} (h : w.Refuses text) (more : Str) :
    Writer.Refuses { w with pending := w.pending ++ text } more := by
  unfold Writer.Refuses at h ⊢
  rw [Utf16.feed_append, h, Option.bind_none]

/-- Texts that are written one after the other, up to the first that is refused. -/
def Writer.takes (w : Writer) : List Str → Bool × Writer
  | [] => (true, w)
  | text :: texts =>
    match w.write (fun _ => none) text with
    | (none, w) => w.takes texts
    | (some _, w) => (false, w)

/-- What has left the encoder. -/
def Writer.delivered (w : Writer) : Str := if w.held.isSome then w.sent.dropLast else w.sent

section
variable {texts : List Str} {held held' : Option UInt16} {sent : Str}

theorem takes_all (h : feed held texts.flatten = some held') :
    Writer.takes ⟨[], held, sent⟩ texts = (true, ⟨[], held', sent ++ texts.flatten⟩) := by
  induction texts generalizing held sent with
  | nil =>
    have hheld : held = held' := by
      rw [List.flatten_nil, feed] at h
      exact Option.some.inj h
    rw [Writer.takes, List.flatten_nil, List.append_nil, hheld]
  | cons text texts ih =>
    rw [List.flatten_cons, Utf16.feed_append] at h
    obtain ⟨between, htext, hrest⟩ := Option.bind_eq_some_iff.mp h
    simp only [Writer.takes, Writer.write, List.nil_append, htext]
    rw [ih hrest, List.flatten_cons, List.append_assoc]

/-- What is sent before a text is refused has gone through the encoder. -/
theorem takes_refused (h : feed held texts.flatten = none) : ∃ taken pending held',
    Writer.takes ⟨[], held, sent⟩ texts = (false, ⟨pending, held', sent ++ taken⟩) ∧
      taken <+: texts.flatten ∧ feed held taken = some held' := by
  induction texts generalizing held sent with
  | nil => cases held <;> cases h
  | cons text texts ih =>
    rw [List.flatten_cons, Utf16.feed_append] at h
    cases htext : feed held text with
    | none =>
      refine ⟨[], text, held, ?_, List.nil_prefix, by cases held <;> rfl⟩
      simp only [Writer.takes, Writer.write, List.nil_append, htext, List.append_nil]
    | some between =>
      rw [htext, Option.bind_some] at h
      obtain ⟨taken, pending, held', htakes, hbegins, hheld⟩ := @ih between (sent ++ text) h
      refine ⟨text ++ taken, pending, held', ?_, ?_, ?_⟩
      · simp only [Writer.takes, Writer.write, List.nil_append, htext]
        rw [htakes, List.append_assoc]
      · exact (List.prefix_append_right_inj text).mpr hbegins
      · rw [Utf16.feed_append, htext, Option.bind_some, hheld]

end

/-- What has left a new encoder is well-formed, and the texts begin with it. -/
theorem takes_fresh {texts : List Str} {w : Writer} {all : Bool}
    (h : Writer.fresh.takes texts = (all, w)) :
    w.delivered <+: texts.flatten ∧ WellFormed w.delivered := by
  obtain ⟨taken, pending, held, rfl, hbegins, hfeed⟩ : ∃ taken pending held,
      w = ⟨pending, held, taken⟩ ∧ taken <+: texts.flatten ∧ feed none taken = some held := by
    cases hfeed : feed none texts.flatten with
    | none =>
      obtain ⟨taken, pending, held, htakes, hbegins, hheld⟩ := @takes_refused _ none [] hfeed
      exact ⟨taken, pending, held, (Prod.mk.inj (h.symm.trans htakes)).2, hbegins, hheld⟩
    | some held =>
      exact ⟨_, [], held, (Prod.mk.inj (h.symm.trans (takes_all hfeed))).2, List.prefix_rfl, hfeed⟩
  cases held with
  | none => exact ⟨hbegins, Utf16.feed_eq_iff.mp hfeed⟩
  | some u => exact ⟨(List.dropLast_prefix taken).trans hbegins, Utf16.feed_held hfeed⟩

theorem takes_refuses {w w' : Writer} {texts : List Str} (h : w.takes texts = (false, w'))
    (more : Str) : w'.Refuses more := by
  induction texts generalizing w with
  | nil => cases h
  | cons text texts ih =>
    rw [Writer.takes] at h
    cases hfeed : feed w.held (w.pending ++ text) with
    | none =>
      simp only [Writer.write, hfeed] at h
      obtain rfl := (Prod.mk.inj h).2
      exact Writer.Refuses.after (w := w) hfeed more
    | some held =>
      simp only [Writer.write, hfeed] at h
      exact ih h

/-- What has left the encoder cannot be taken back. -/
theorem takes_delivered {w w' : Writer} {texts : List Str} {all : Bool}
    (h : w.takes texts = (all, w')) : w.delivered <+: w'.delivered := by
  induction texts generalizing w with
  | nil =>
    obtain rfl := (Prod.mk.inj h).2
    exact List.prefix_rfl
  | cons text texts ih =>
    rw [Writer.takes] at h
    cases hfeed : feed w.held (w.pending ++ text) with
    | none =>
      simp only [Writer.write, hfeed] at h
      obtain rfl := (Prod.mk.inj h).2
      exact List.prefix_rfl
    | some held =>
      simp only [Writer.write, hfeed] at h
      refine List.IsPrefix.trans ?_ (ih h)
      by_cases hchars : w.pending ++ text = []
      · rw [hchars] at hfeed ⊢
        obtain rfl : w.held = held := by
          cases hheld : w.held with
          | none =>
            rw [hheld, feed] at hfeed
            exact Option.some.inj hfeed
          | some u =>
            rw [hheld, feed] at hfeed
            exact Option.some.inj hfeed
        rw [List.append_nil]
        exact List.prefix_rfl
      · have hsent : w.delivered <+: w.sent := by
          rw [Writer.delivered]
          split_ifs
          · exact List.dropLast_prefix w.sent
          · exact List.prefix_rfl
        refine hsent.trans ?_
        simp only [Writer.delivered]
        split_ifs
        · rw [List.dropLast_append_of_ne_nil hchars]
          exact List.prefix_append w.sent _
        · exact List.prefix_append w.sent _

/-- The writer has taken exactly this text since it was new. -/
def Writer.Took (w : Writer) (text : Str) : Prop :=
  w.pending = [] ∧ feed none text = some w.held ∧ w.sent = text

theorem Writer.Took.write {w w' : Writer} {text more : Str} (h : w.Took text)
    (hwrite : w.write (fun _ => none) more = (none, w')) : w'.Took (text ++ more) := by
  obtain ⟨hpending, hfeed, hsent⟩ := h
  unfold Writer.write at hwrite
  rw [hpending, List.nil_append] at hwrite
  cases hmore : feed w.held more with
  | none =>
    simp only [hmore] at hwrite
    cases hwrite
  | some held =>
    simp only [hmore] at hwrite
    obtain rfl := (Prod.mk.inj hwrite).2
    refine ⟨rfl, ?_, congrArg (· ++ more) hsent⟩
    rw [Utf16.feed_append, hfeed]
    exact hmore

/-- Text that was taken ends between two characters when its last part is well-formed
    and follows a character that is no surrogate. -/
theorem Writer.Took.wellFormed {w : Writer} {text more : Str} {u : UInt16}
    (h : w.Took (text ++ [u] ++ more)) (hu : Utf16.isHigh u = false) (hmore : WellFormed more) :
    WellFormed (text ++ [u] ++ more) := by
  obtain ⟨-, hfeed, -⟩ := h
  rw [Utf16.feed_append] at hfeed
  obtain ⟨held, htext, hheld⟩ := Option.bind_eq_some_iff.mp hfeed
  obtain rfl := Utf16.feed_concat hu htext
  rw [← Utf16.feed_eq_iff, Utf16.feed_append, htext]
  exact Utf16.feed_wellFormed hmore

end NetServices.TextWriter
