import Mathlib.Data.List.Induction
import Mathlib.Tactic.Common
import Mathlib.Data.Nat.Notation
import Mathlib.Logic.Basic

set_option autoImplicit false

/-!
# Machines that answer every input

A machine takes a state and an input to an answer and the next state. A run
over a list of inputs leaves a trace of inputs and answers and a final state;
a trace can be cut at any of its entries.
-/
namespace NetServices.Machine

variable {σ ι ω : Type} (step : σ → ι → ω × σ)

def final (s : σ) : List ι → σ
  | [] => s
  | i :: is => final (step s i).2 is

def trace (s : σ) : List ι → List (ι × ω)
  | [] => []
  | i :: is => (i, (step s i).1) :: trace (step s i).2 is

theorem final_append (s : σ) (is js : List ι) :
    final step s (is ++ js) = final step (final step s is) js := by
  induction is generalizing s with
  | nil => rfl
  | cons i is ih => exact ih _

theorem trace_append (s : σ) (is js : List ι) :
    trace step s (is ++ js) = trace step s is ++ trace step (final step s is) js := by
  induction is generalizing s with
  | nil => rfl
  | cons i is ih => exact congrArg (_ :: ·) (ih _)

/-- A trace has one entry for each input. -/
theorem trace_inputs (s : σ) (is : List ι) : (trace step s is).map Prod.fst = is := by
  induction is generalizing s with
  | nil => rfl
  | cons i is ih => exact congrArg (i :: ·) (ih _)

/-- An entry of a trace is one step of the run, and what follows it is the trace
    of the run from there. -/
theorem trace_split {s : σ} {is : List ι} {before after : List (ι × ω)} {x : ι × ω}
    (h : trace step s is = before ++ x :: after) :
    ∃ js ks, is = js ++ x.1 :: ks ∧ trace step s js = before ∧
      x.2 = (step (final step s js) x.1).1 ∧
      after = trace step (step (final step s js) x.1).2 ks := by
  induction is generalizing s before with
  | nil => cases before <;> cases h
  | cons i is ih =>
    cases before with
    | nil =>
      obtain ⟨rfl, rfl⟩ := List.cons.inj h
      exact ⟨[], is, rfl, rfl, rfl, rfl⟩
    | cons y before =>
      obtain ⟨rfl, hrest⟩ := List.cons.inj h
      obtain ⟨js, ks, rfl, rfl, hx, ha⟩ := ih hrest
      exact ⟨i :: js, ks, rfl, rfl, hx, ha⟩

/-- Every step of the run meets a condition on its state and its input. -/
def Every (P : σ → ι → Prop) (s : σ) : List ι → Prop
  | [] => True
  | i :: is => P s i ∧ Every P (step s i).2 is

/-- A condition on every step of a run, read at each place where the run can be cut. -/
theorem every_iff_split {P : σ → ι → Prop} {s : σ} {is : List ι} :
    Every step P s is ↔
      ∀ before i after, is = before ++ i :: after → P (final step s before) i := by
  induction is generalizing s with
  | nil =>
    refine iff_of_true trivial fun before i after h => ?_
    cases before <;> cases h
  | cons i is ih =>
    rw [Every, ih]
    constructor
    · rintro ⟨hfirst, hrest⟩ before j after h
      cases before with
      | nil =>
        obtain ⟨rfl, -⟩ := List.cons.inj h
        exact hfirst
      | cons k before =>
        obtain ⟨rfl, hsplit⟩ := List.cons.inj h
        exact hrest before j after hsplit
    · intro h
      refine ⟨h [] i is rfl, fun before j after hsplit => ?_⟩
      exact h (i :: before) j after (congrArg (i :: ·) hsplit)

theorem every_append {P : σ → ι → Prop} {s : σ} {is js : List ι} :
    Every step P s (is ++ js) ↔ Every step P s is ∧ Every step P (final step s is) js := by
  induction is generalizing s with
  | nil => exact (and_iff_right trivial).symm
  | cons i is ih => exact (and_congr_right fun _ => ih).trans and_assoc.symm

theorem every_concat {P : σ → ι → Prop} {s : σ} {is : List ι} {i : ι} :
    Every step P s (is ++ [i]) ↔ Every step P s is ∧ P (final step s is) i := by
  induction is generalizing s with
  | nil => exact and_comm
  | cons j is ih => exact (and_congr_right fun _ => ih).trans and_assoc.symm

theorem final_of_every {P : σ → ι → Prop} {I : σ → Prop}
    (hI : ∀ s i, I s → P s i → I (step s i).2) {s : σ} (hs : I s) {is : List ι}
    (h : Every step P s is) : I (final step s is) := by
  induction is generalizing s with
  | nil => exact hs
  | cons i is ih => exact ih (hI s i hs h.1) h.2

/-- What every step preserves holds at the end of every run. -/
theorem final_invariant {I : σ → Prop} (hI : ∀ s i, I s → I (step s i).2) {s : σ} (hs : I s)
    (is : List ι) : I (final step s is) := by
  induction is generalizing s with
  | nil => exact hs
  | cons i is ih => exact ih (hI s i hs)

/-- Where a step keeps a property exactly under a condition, and never restores it, a run
    keeps it exactly if every step meets the condition. -/
theorem final_iff_every {P : σ → ι → Prop} {I : σ → Prop}
    (hI : ∀ s i, I s → (I (step s i).2 ↔ P s i)) (hlost : ∀ s i, ¬ I s → ¬ I (step s i).2)
    {s : σ} (hs : I s) (is : List ι) : I (final step s is) ↔ Every step P s is := by
  refine ⟨fun h => ?_, final_of_every step (fun s i hs => (hI s i hs).mpr) hs⟩
  induction is generalizing s with
  | nil => trivial
  | cons i is ih =>
    have hnext : I (step s i).2 := by
      by_contra hnot
      exact final_invariant step hlost hnot is h
    exact ⟨(hI s i hs).mp hnext, ih hnext h⟩

/-- Where a step keeps a property exactly under a condition, every state of a run has it
    exactly if every step meets the condition. -/
theorem prefixes_iff_every {P : σ → ι → Prop} {I : σ → Prop}
    (hI : ∀ s i, I s → (I (step s i).2 ↔ P s i)) {s : σ} (hs : I s) (is : List ι) :
    (∀ before, before <+: is → I (final step s before)) ↔ Every step P s is := by
  induction is generalizing s with
  | nil =>
    refine iff_of_true (fun before hbefore => ?_) trivial
    rw [List.prefix_nil.mp hbefore]
    exact hs
  | cons i is ih =>
    constructor
    · intro h
      have hnext := h [i] ⟨is, rfl⟩
      refine ⟨(hI s i hs).mp hnext, (ih hnext).mp fun before hbefore => ?_⟩
      exact h (i :: before) (List.cons_prefix_cons.mpr ⟨rfl, hbefore⟩)
    · rintro ⟨hfirst, hrest⟩ before hbefore
      rcases List.prefix_cons_iff.mp hbefore with rfl | ⟨rest, rfl, hrest'⟩
      · exact hs
      · exact (ih ((hI s i hs).mpr hfirst)).mpr hrest rest hrest'

/-- Two conditions that say the same at every step of a run that keeps an invariant. -/
theorem every_iff {P Q R : σ → ι → Prop} {I : σ → Prop}
    (hI : ∀ s i, I s → P s i → I (step s i).2) (hQR : ∀ s i, I s → P s i → (Q s i ↔ R s i))
    {s : σ} (hs : I s) {is : List ι} (h : Every step P s is) :
    Every step Q s is ↔ Every step R s is := by
  induction is generalizing s with
  | nil => exact Iff.rfl
  | cons i is ih => exact and_congr (hQR s i hs h.1) (ih (hI s i hs h.1) h.2)

/-- What every step preserves of the trace and the state holds of every run. -/
theorem trace_invariant {I : List (ι × ω) → σ → Prop}
    (hI : ∀ h s i, I h s → I (h ++ [(i, (step s i).1)]) (step s i).2) {s : σ} (hs : I [] s)
    (is : List ι) : I (trace step s is) (final step s is) := by
  induction is using List.reverseRecOn with
  | nil => exact hs
  | append_singleton is i ih =>
    rw [trace_append, final_append]
    exact hI _ _ i ih

/-- Two machines that answer alike and stay in step, as long as they are in step for the
    inputs that remain. -/
theorem simulation {τ : Type} {step' : τ → ι → ω × τ} {R : List ι → σ → τ → Prop}
    (hR : ∀ s s' i is, R (i :: is) s s' →
      (step s i).1 = (step' s' i).1 ∧ R is (step s i).2 (step' s' i).2)
    {s : σ} {s' : τ} {is : List ι} (h : R is s s') :
    trace step s is = trace step' s' is ∧ R [] (final step s is) (final step' s' is) := by
  induction is generalizing s s' with
  | nil => exact ⟨rfl, h⟩
  | cons i is ih =>
    obtain ⟨hanswer, hnext⟩ := hR s s' i is h
    obtain ⟨htrace, hfinal⟩ := ih hnext
    exact ⟨congrArg₂ List.cons (congrArg (Prod.mk i) hanswer) htrace, hfinal⟩

/-- Where some inputs keep a relation to the other machine, and the others are answered alike
    by both, what the first ones do cannot be seen in the answers to the others. -/
theorem purged {P : σ → ι → Prop} {R : σ → σ → Prop} {mine : ι → Bool}
    (hmine : ∀ s s' i, R s s' → P s i → mine i = true → R (step s i).2 s')
    (hother : ∀ s s' i, R s s' → P s i → mine i = false →
      (step s i).1 = (step s' i).1 ∧ R (step s i).2 (step s' i).2)
    {s s' : σ} {is : List ι} (hR : R s s') (h : Every step P s is) :
    (trace step s is).filter (fun x => !mine x.1) =
        trace step s' (is.filter fun i => !mine i) ∧
      R (final step s is) (final step s' (is.filter fun i => !mine i)) := by
  induction is generalizing s s' with
  | nil => exact ⟨rfl, hR⟩
  | cons i is ih =>
    obtain ⟨hi, his⟩ := h
    cases hi' : mine i with
    | true =>
      simp only [trace, final, List.filter_cons, hi', Bool.not_true, Bool.false_eq_true, if_false]
      exact ih (hmine s s' i hR hi hi') his
    | false =>
      obtain ⟨hanswer, hnext⟩ := hother s s' i hR hi hi'
      obtain ⟨htrace, hfinal⟩ := ih hnext his
      simp only [trace, final, List.filter_cons, hi', Bool.not_false, if_true]
      exact ⟨congrArg₂ List.cons (congrArg (Prod.mk i) hanswer) htrace, hfinal⟩

section
variable {α : Type} {P Q : α → Prop}

/-- An entry of the history is a `P`, and none after it is a `Q`. -/
def Since (P Q : α → Prop) (history : List α) : Prop :=
  ∃ before x after, history = before ++ x :: after ∧ P x ∧ ∀ y ∈ after, ¬ Q y

theorem not_since_nil : ¬ Since P Q [] := by
  rintro ⟨before, x, after, h, -⟩
  cases before <;> cases h

/-- The last entry decides, or nothing has changed. -/
theorem since_concat {history : List α} {x : α} :
    Since P Q (history ++ [x]) ↔ P x ∨ Since P Q history ∧ ¬ Q x := by
  constructor
  · rintro ⟨before, y, after, h, hy, hafter⟩
    rcases List.eq_nil_or_concat after with rfl | ⟨rest, z, rfl⟩
    · obtain ⟨rfl, hxy⟩ := List.append_inj' h rfl
      exact .inl ((List.cons.inj hxy).1 ▸ hy)
    · rw [List.concat_eq_append] at h hafter
      rw [← List.cons_append, ← List.append_assoc] at h
      obtain ⟨rfl, hxz⟩ := List.append_inj' h rfl
      obtain rfl := (List.cons.inj hxz).1
      exact .inr ⟨⟨before, y, rest, rfl, hy, fun w hw => hafter w (List.mem_append_left _ hw)⟩,
        hafter x (List.mem_append_right _ List.mem_cons_self)⟩
  · rintro (hx | ⟨⟨before, y, after, rfl, hy, hafter⟩, hx⟩)
    · exact ⟨history, x, [], rfl, hx, fun y hy => nomatch hy⟩
    · refine ⟨before, y, after ++ [x], by rw [List.append_assoc, List.cons_append], hy, ?_⟩
      intro z hz
      rcases List.mem_append.mp hz with hz | hz
      · exact hafter z hz
      · exact List.eq_of_mem_singleton hz ▸ hx

end

end NetServices.Machine
