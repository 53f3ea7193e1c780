import NetServices.Utf16

set_option autoImplicit false

/-!
# Programs that may raise

Programs over a state that a raised exception does not undo. `Triple P m Q E`
says that from every state in `P` the program ends in `Q`, or raises in `E`; its
rules follow the structure of the program.
-/
namespace NetServices
open Utf16 (Str)

inductive ExnKind where
  | session
  | socket
  | io
  | argumentOutOfRange
  | encoderFallback
  | other
deriving DecidableEq

structure Exn where
  kind : ExnKind
  message : Str
deriving DecidableEq

namespace Exceptions

variable {ε σ α β : Type}

@[simp] theorem pure_run (a : α) (s : σ) : (pure a : EStateM ε σ α) s = .ok a s := rfl

@[simp] theorem throw_run (e : ε) (s : σ) : (throw e : EStateM ε σ α) s = .error e s := rfl

@[simp] theorem get_run (s : σ) : (get : EStateM ε σ σ) s = .ok s s := rfl

@[simp] theorem modify_run (f : σ → σ) (s : σ) :
    (modify f : EStateM ε σ PUnit) s = .ok ⟨⟩ (f s) := rfl

@[simp] theorem modifyGet_run (f : σ → α × σ) (s : σ) :
    (modifyGet f : EStateM ε σ α) s = .ok (f s).1 (f s).2 := rfl

@[simp] theorem bind_run (m : EStateM ε σ α) (f : α → EStateM ε σ β) (s : σ) :
    (m >>= f) s = match m s with
      | .ok a s => f a s
      | .error e s => .error e s := rfl

theorem bind_error {m : EStateM ε σ α} {f : α → EStateM ε σ β} {s s' : σ} {e : ε}
    (h : m s = .error e s') : (m >>= f) s = .error e s' := by
  rw [bind_run, h]

theorem bind_eq_ok_iff {m : EStateM ε σ α} {f : α → EStateM ε σ β} {s s'' : σ} {b : β} :
    (m >>= f) s = .ok b s'' ↔ ∃ a s', m s = .ok a s' ∧ f a s' = .ok b s'' := by
  rw [bind_run]
  cases m s with
  | ok a s' =>
    refine ⟨fun h => ⟨a, s', rfl, h⟩, ?_⟩
    rintro ⟨_, _, h, hf⟩
    cases h
    exact hf
  | error e s' =>
    constructor
    · intro h
      cases h
    · rintro ⟨_, _, h, -⟩
      cases h

@[simp] theorem tryCatch_run (m : EStateM ε σ α) (handler : ε → EStateM ε σ α) (s : σ) :
    (tryCatch m handler : EStateM ε σ α) s = match m s with
      | .ok a s => .ok a s
      | .error e s => handler e s := by
  change EStateM.tryCatch m handler s = _
  unfold EStateM.tryCatch
  cases m s <;> rfl

theorem rethrow_eq_ok_iff {m : EStateM ε σ α} {g : ε → ε} {s s' : σ} {a : α} :
    (tryCatch m (fun e => throw (g e)) : EStateM ε σ α) s = .ok a s' ↔ m s = .ok a s' := by
  rw [tryCatch_run]
  cases m s with
  | ok a s' => exact Iff.rfl
  | error e s' =>
    constructor <;>
    · intro h
      cases h

/-- The outcome of a program, normal or raised. -/
def Ends (Q : α → σ → Prop) (E : ε → σ → Prop) : EStateM.Result ε σ α → Prop
  | .ok a s => Q a s
  | .error e s => E e s

theorem Ends.imp {Q Q' : α → σ → Prop} {E E' : ε → σ → Prop} {r : EStateM.Result ε σ α}
    (h : Ends Q E r) (hQ : ∀ a s, Q a s → Q' a s) (hE : ∀ e s, E e s → E' e s) : Ends Q' E' r := by
  cases r with
  | ok a s => exact hQ a s h
  | error e s => exact hE e s h

/-- A program that leaves one value for a part of the state, however it ends. -/
theorem Ends.part_iff {τ : Type} {part : σ → τ} {v : τ} {r : EStateM.Result ε σ α}
    (h : Ends (fun _ s => part s = v) (fun _ s => part s = v) r) {P : τ → Prop} :
    Ends (fun _ s => P (part s)) (fun _ s => P (part s)) r ↔ P v := by
  cases r with
  | ok a s => exact iff_of_eq (congrArg P h)
  | error e s => exact iff_of_eq (congrArg P h)

theorem Ends.bind {m : EStateM ε σ α} {f : α → EStateM ε σ β} {s : σ} {R : α → σ → Prop}
    {Q : β → σ → Prop} {E : ε → σ → Prop} (hm : Ends R E (m s))
    (hf : ∀ a s', R a s' → Ends Q E (f a s')) : Ends Q E ((m >>= f) s) := by
  rw [bind_run]
  revert hm
  cases m s with
  | ok a s' => exact hf a s'
  | error e s' => exact id

theorem Ends.tryCatch {m : EStateM ε σ α} {handler : ε → EStateM ε σ α} {s : σ}
    {Q : α → σ → Prop} {R E : ε → σ → Prop} (hm : Ends Q R (m s))
    (hh : ∀ e s', R e s' → Ends Q E (handler e s')) :
    Ends Q E ((tryCatch m handler : EStateM ε σ α) s) := by
  rw [tryCatch_run]
  revert hm
  cases m s with
  | ok a s' => exact id
  | error e s' => exact hh e s'

def Triple (P : σ → Prop) (m : EStateM ε σ α) (Q : α → σ → Prop) (E : ε → σ → Prop) : Prop :=
  ∀ s, P s → Ends Q E (m s)

theorem Triple.bind {P : σ → Prop} {m : EStateM ε σ α} {f : α → EStateM ε σ β}
    {R : α → σ → Prop} {Q : β → σ → Prop} {E : ε → σ → Prop} (hm : Triple P m R E)
    (hf : ∀ a, Triple (R a) (f a) Q E) : Triple P (m >>= f) Q E :=
  fun s hs => (hm s hs).bind hf

/-- However the program ends, it leaves a part of the state as it was. -/
def Leaves {τ : Type} (part : σ → τ) (m : EStateM ε σ α) : Prop :=
  ∀ s, Ends (fun _ s' => part s' = part s) (fun _ s' => part s' = part s) (m s)

namespace Leaves

variable {τ : Type} {part : σ → τ}

theorem pure (a : α) : Leaves part (Pure.pure a : EStateM ε σ α) := fun _ => rfl

theorem throw (e : ε) : Leaves part (MonadExcept.throw e : EStateM ε σ α) := fun _ => rfl

theorem get : Leaves part (MonadState.get : EStateM ε σ σ) := fun _ => rfl

theorem modifyGet {f : σ → α × σ} (h : ∀ s, part (f s).2 = part s) :
    Leaves part (MonadState.modifyGet f : EStateM ε σ α) := h

theorem bind {m : EStateM ε σ α} {f : α → EStateM ε σ β} (hm : Leaves part m)
    (hf : ∀ a, Leaves part (f a)) : Leaves part (m >>= f) := by
  intro s
  rw [bind_run]
  have h := hm s
  revert h
  cases m s with
  | ok a s' =>
    intro h
    change part s' = part s at h
    rw [← h]
    exact hf a s'
  | error e s' => exact id

theorem tryCatch {m : EStateM ε σ α} {handler : ε → EStateM ε σ α} (hm : Leaves part m)
    (hh : ∀ e, Leaves part (handler e)) :
    Leaves part (MonadExcept.tryCatch m handler : EStateM ε σ α) := by
  intro s
  rw [tryCatch_run]
  have h := hm s
  revert h
  cases m s with
  | ok a s' => exact id
  | error e s' =>
    intro h
    change part s' = part s at h
    rw [← h]
    exact hh e s'

theorem ends {m : EStateM ε σ α} (h : Leaves part m) {s : σ} {v : τ} (hs : part s = v) :
    Ends (fun _ s' => part s' = v) (fun _ s' => part s' = v) (m s) :=
  hs ▸ h s

end Leaves
end Exceptions
end NetServices
