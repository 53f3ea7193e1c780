import Mathlib.Order.Lattice.Nat
import Mathlib.Data.List.Chain
import Mathlib.Tactic.Common

set_option autoImplicit false

/-!
# Clock readings

A date is its number of ticks of 100 ns since the earliest date. The inputs of a
run carry clock readings, which do not go back along the run.
-/
namespace NetServices

abbrev DateTime := ℕ

namespace DateTime

def minValue : DateTime := 0
def ticksPerSecond : ℕ := 10000000

end DateTime

namespace Clock

variable {ι : Type} {clock : ι → DateTime}

/-- The readings do not go back, and start no earlier than `t`. -/
def From (clock : ι → DateTime) (t : DateTime) (run : List ι) : Prop :=
  List.IsChain (· ≤ ·) (t :: run.map clock)

theorem from_cons {t : DateTime} {x : ι} {run : List ι} :
    From clock t (x :: run) ↔ t ≤ clock x ∧ From clock (clock x) run :=
  List.isChain_cons_cons

theorem From.left {t : DateTime} {before after : List ι} (h : From clock t (before ++ after)) :
    From clock t before := by
  rw [From, List.map_append, ← List.cons_append] at h
  exact h.left_of_append

theorem From.le {t : DateTime} {before after : List ι} {x : ι}
    (h : From clock t (before ++ x :: after)) : ∀ y ∈ before, clock y ≤ clock x := by
  intro y hy
  have hpairwise := List.isChain_iff_pairwise.mp h
  rw [List.map_append, ← List.cons_append, List.pairwise_append] at hpairwise
  exact hpairwise.2.2 (clock y) (List.mem_cons_of_mem t (List.mem_map_of_mem hy)) (clock x)
    (List.mem_map_of_mem List.mem_cons_self)

/-- The time of the last entry of a history that is a `P`. -/
def Latest (clock : ι → DateTime) (P : ι → Prop) (history : List ι) (t : DateTime) : Prop :=
  IsGreatest {t | ∃ x ∈ history, P x ∧ clock x = t} t

section
variable {P : ι → Prop} {history : List ι} {x : ι} {t : DateTime}

theorem latest_concat (hle : ∀ y ∈ history, clock y ≤ clock x) (hx : P x) :
    Latest clock P (history ++ [x]) (clock x) := by
  refine ⟨⟨x, List.mem_append_right _ List.mem_cons_self, hx, rfl⟩, ?_⟩
  rintro _ ⟨y, hy, -, rfl⟩
  rcases List.mem_append.mp hy with hy | hy
  · exact hle y hy
  · rw [List.eq_of_mem_singleton hy]

theorem Latest.concat (h : Latest clock P history t) (hx : ¬ P x) :
    Latest clock P (history ++ [x]) t := by
  obtain ⟨⟨y, hy, hP, hclock⟩, hgreatest⟩ := h
  refine ⟨⟨y, List.mem_append_left _ hy, hP, hclock⟩, ?_⟩
  rintro _ ⟨z, hz, hPz, rfl⟩
  rcases List.mem_append.mp hz with hz | hz
  · exact hgreatest ⟨z, hz, hPz, rfl⟩
  · exact absurd (List.eq_of_mem_singleton hz ▸ hPz) hx

/-- An entry of a history is followed by a last one of its kind. -/
theorem exists_latest (hle : ∀ y ∈ history, clock y ≤ t) (hx : x ∈ history) (hP : P x) :
    ∃ u, Latest clock P history u ∧ clock x ≤ u ∧ u ≤ t := by
  have hbound : ∀ u ∈ {u | ∃ y ∈ history, P y ∧ clock y = u}, u ≤ t := by
    rintro _ ⟨y, hy, -, rfl⟩
    exact hle y hy
  have hmem : clock x ∈ {u | ∃ y ∈ history, P y ∧ clock y = u} := ⟨x, hx, hP, rfl⟩
  have hlatest : Latest clock P history (sSup {u | ∃ y ∈ history, P y ∧ clock y = u}) :=
    ⟨Nat.sSup_mem ⟨_, hmem⟩ ⟨t, hbound⟩, fun _ hu => le_csSup ⟨t, hbound⟩ hu⟩
  exact ⟨_, hlatest, hlatest.2 hmem, hbound _ hlatest.1⟩

end

end Clock
end NetServices
