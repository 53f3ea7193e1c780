import NetServices.Machine
import Mathlib.Order.WellFounded
import Mathlib.Logic.Embedding.Basic
import Mathlib.Logic.Function.Basic

set_option autoImplicit false

/-!
# Leases

A registry says who has leased a resource, and when the lease was last
refreshed. A lease that has run out may stay in the registry: what counts is
which leases are in force. The registry that a history leads to is read off the
last entry that touches the resource.
-/
namespace NetServices.Leases
open Machine (Since)

/-- When a lease has run out: for good, and the sooner the longer ago it was refreshed. -/
structure Term (Time : Type) [Preorder Time] where
  Over : Time → Time → Prop
  stays : ∀ {refreshed now later : Time}, now ≤ later → Over refreshed now → Over refreshed later
  earlier : ∀ {before refreshed now : Time}, before ≤ refreshed → Over refreshed now →
    Over before now

structure Lease (Owner Time : Type) where
  owner : Owner
  refreshed : Time

abbrev Registry (Resource Owner Time : Type) := Resource → Option (Lease Owner Time)

/-- A resource is leased to an owner, or released. -/
structure Effect (Resource Owner : Type) where
  resource : Resource
  owner : Option Owner

section
variable {Resource : Type} (rank : Resource ↪ ℕ)

open Classical in
/-- The lowest resource of a set, in the order of their ranks. -/
noncomputable def lowest (s : Set Resource) : Option Resource :=
  if h : s.Nonempty then some (Function.argminOn rank s h) else none

theorem lowest_eq_some_iff {s : Set Resource} {r : Resource} :
    lowest rank s = some r ↔ r ∈ s ∧ ∀ q ∈ s, rank r ≤ rank q := by
  by_cases h : s.Nonempty
  · have hmem := Function.argminOn_mem rank s h
    rw [lowest, dif_pos h, Option.some.injEq]
    constructor
    · rintro rfl
      exact ⟨hmem, fun q hq => Function.argminOn_le rank s hq⟩
    · rintro ⟨hr, hmin⟩
      exact rank.injective (le_antisymm (Function.argminOn_le rank s hr) (hmin _ hmem))
  · rw [lowest, dif_neg h]
    refine iff_of_false (Option.some_ne_none r).symm ?_
    rintro ⟨hr, -⟩
    exact h ⟨r, hr⟩

theorem lowest_eq_none_iff {s : Set Resource} : lowest rank s = none ↔ ∀ r, r ∉ s := by
  by_cases h : s.Nonempty
  · rw [lowest, dif_pos h]
    refine iff_of_false (Option.some_ne_none _) fun hno => ?_
    obtain ⟨r, hr⟩ := h
    exact hno r hr
  · rw [lowest, dif_neg h]
    exact iff_of_true rfl fun r hr => h ⟨r, hr⟩

end

namespace Registry

variable {Resource Owner Time : Type}

section
variable [Preorder Time] (term : Term Time)

/-- The resource is leased, and the lease has not run out. -/
def InForce (reg : Registry Resource Owner Time) (now : Time) (r : Resource)
    (lease : Lease Owner Time) : Prop :=
  reg r = some lease ∧ ¬ term.Over lease.refreshed now

def OwnedBy (reg : Registry Resource Owner Time) (now : Time) (r : Resource) (owner : Owner) :
    Prop :=
  ∃ refreshed, reg.InForce term now r ⟨owner, refreshed⟩

def Free (reg : Registry Resource Owner Time) (now : Time) (r : Resource) : Prop :=
  ∀ owner, ¬ reg.OwnedBy term now r owner

/-- From time `t` on the same leases are in force. -/
def SameFrom (t : Time) (reg reg' : Registry Resource Owner Time) : Prop :=
  ∀ now, t ≤ now → ∀ r lease, reg.InForce term now r lease ↔ reg'.InForce term now r lease

end

variable [DecidableEq Resource]

/-- The registry after an effect at time `now`. -/
def apply (reg : Registry Resource Owner Time) (now : Time) :
    Option (Effect Resource Owner) → Registry Resource Owner Time
  | none => reg
  | some effect => Function.update reg effect.resource (effect.owner.map (⟨·, now⟩))

theorem apply_same (reg : Registry Resource Owner Time) (now : Time) (r : Resource)
    (owner : Option Owner) : reg.apply now (some ⟨r, owner⟩) r = owner.map (⟨·, now⟩) :=
  Function.update_self _ _ _

theorem apply_other {reg : Registry Resource Owner Time} {now : Time}
    {effect : Option (Effect Resource Owner)} {r : Resource}
    (h : ∀ owner, effect ≠ some ⟨r, owner⟩) : reg.apply now effect r = reg r := by
  cases effect with
  | none => rfl
  | some effect =>
    refine Function.update_of_ne ?_ _ _
    rintro rfl
    exact h effect.owner rfl

section
variable [Preorder Time] {term : Term Time}

omit [DecidableEq Resource] in
theorem SameFrom.ownedBy_iff {t now : Time} {reg reg' : Registry Resource Owner Time}
    (h : SameFrom term t reg reg') (ht : t ≤ now) (r : Resource) (owner : Owner) :
    reg.OwnedBy term now r owner ↔ reg'.OwnedBy term now r owner :=
  exists_congr fun _ => h now ht r _

/-- What is done to two registries alike keeps them alike. -/
theorem SameFrom.apply {t : Time} {reg reg' : Registry Resource Owner Time}
    (h : SameFrom term t reg reg') (u : Time) (effect : Option (Effect Resource Owner)) :
    SameFrom term t (reg.apply u effect) (reg'.apply u effect) := by
  intro now hnow r lease
  by_cases hr : ∃ owner, effect = some ⟨r, owner⟩
  · obtain ⟨owner, rfl⟩ := hr
    rw [InForce, InForce, apply_same, apply_same]
  · have hother : ∀ owner, effect ≠ some ⟨r, owner⟩ := fun owner heq => hr ⟨owner, heq⟩
    rw [InForce, InForce, apply_other hother, apply_other hother]
    exact h now hnow r lease

end

section
variable {ε : Type} (time : ε → Time) (effect : ε → Option (Effect Resource Owner))

/-- The registry that a history leads to. -/
def after : List ε → Registry Resource Owner Time :=
  List.foldl (fun reg x => reg.apply (time x) (effect x)) (fun _ => none)

omit [DecidableEq Resource] in
/-- The entry decides about the resource. -/
def Touches (r : Resource) (x : ε) : Prop := ∃ owner, effect x = some ⟨r, owner⟩

theorem after_concat (history : List ε) (x : ε) : after time effect (history ++ [x]) =
    (after time effect history).apply (time x) (effect x) := by
  rw [after, List.foldl_append]
  rfl

/-- The last entry that touches a resource says who has leased it. -/
theorem after_eq_some_iff {history : List ε} {r : Resource} {lease : Lease Owner Time} :
    after time effect history r = some lease ↔
      Since (fun x => effect x = some ⟨r, some lease.owner⟩ ∧ time x = lease.refreshed)
        (Touches effect r) history := by
  induction history using List.reverseRecOn with
  | nil => exact iff_of_false nofun Machine.not_since_nil
  | append_singleton history x ih =>
    rw [after_concat, Machine.since_concat, ← ih]
    by_cases hx : Touches effect r x
    · obtain ⟨owner, heq⟩ := hx
      rw [heq, apply_same]
      cases owner with
      | none => simp [Touches, heq]
      | some owner =>
        obtain ⟨owner', refreshed⟩ := lease
        simp [Touches, heq]
    · rw [apply_other fun owner heq => hx ⟨owner, heq⟩]
      constructor
      · exact fun h => .inr ⟨h, hx⟩
      · rintro (⟨heq, -⟩ | ⟨h, -⟩)
        · exact absurd ⟨_, heq⟩ hx
        · exact h

section
variable [Preorder Time] {term : Term Time} {time effect}

theorem after_ownedBy_iff {history : List ε} {now : Time} {r : Resource} {owner : Owner} :
    (after time effect history).OwnedBy term now r owner ↔
      Since (fun x => effect x = some ⟨r, some owner⟩ ∧ ¬ term.Over (time x) now)
        (Touches effect r) history := by
  constructor
  · rintro ⟨refreshed, heq, hover⟩
    obtain ⟨before, x, rest, rfl, ⟨hx, rfl⟩, hrest⟩ := (after_eq_some_iff time effect).mp heq
    exact ⟨before, x, rest, rfl, ⟨hx, hover⟩, hrest⟩
  · rintro ⟨before, x, rest, rfl, ⟨hx, hover⟩, hrest⟩
    exact ⟨time x, (after_eq_some_iff time effect).mpr
      ⟨before, x, rest, rfl, ⟨hx, rfl⟩, hrest⟩, hover⟩

/-- A resource that is not released stays leased, as of the last time that it was. -/
theorem leased_of_unreleased {before rest : List ε} {x : ε} {r : Resource} {owner : Owner}
    (hx : effect x = some ⟨r, some owner⟩) (hrest : ∀ y ∈ rest, effect y ≠ some ⟨r, none⟩)
    (hclock : (x :: rest).Pairwise fun y z => time y ≤ time z) :
    ∃ lease, after time effect (before ++ x :: rest) r = some lease ∧
      ∀ y ∈ x :: rest, (∃ o, effect y = some ⟨r, some o⟩) → time y ≤ lease.refreshed := by
  induction rest using List.reverseRecOn with
  | nil =>
    refine ⟨⟨owner, time x⟩, ?_, fun y hy _ => ?_⟩
    · rw [after_concat, hx, apply_same]
      rfl
    · rw [List.eq_of_mem_singleton hy]
  | append_singleton rest z ih =>
    rw [← List.cons_append] at hclock ⊢
    rw [← List.append_assoc, after_concat]
    obtain ⟨hpast, -, hlast⟩ := List.pairwise_append.mp hclock
    by_cases hz : Touches effect r z
    · obtain ⟨o, heq⟩ := hz
      cases o with
      | none => exact absurd heq (hrest z (List.mem_append_right _ List.mem_cons_self))
      | some o =>
        refine ⟨⟨o, time z⟩, by rw [heq, apply_same]; rfl, fun y hy _ => ?_⟩
        rcases List.mem_append.mp hy with hy | hy
        · exact hlast y hy z List.mem_cons_self
        · rw [List.eq_of_mem_singleton hy]
    · obtain ⟨lease, heq, hle⟩ := ih (fun y hy => hrest y (List.mem_append_left _ hy)) hpast
      refine ⟨lease, by rw [apply_other fun o h => hz ⟨o, h⟩, heq], fun y hy hleased => ?_⟩
      rcases List.mem_append.mp hy with hy | hy
      · exact hle y hy hleased
      · obtain ⟨o, hyo⟩ := hleased
        rw [List.eq_of_mem_singleton hy] at hyo
        exact absurd ⟨_, hyo⟩ hz

/-- A resource becomes free by being released, or by lying idle until every lease of it has
    run out. -/
theorem unleased_of_free {before rest : List ε} {x : ε} {now : Time} {r : Resource}
    {owner : Owner} (hx : effect x = some ⟨r, some owner⟩)
    (hclock : (x :: rest).Pairwise fun y z => time y ≤ time z)
    (hfree : (after time effect (before ++ x :: rest)).Free term now r) :
    (∃ y ∈ rest, effect y = some ⟨r, none⟩) ∨
      ∀ y ∈ x :: rest, (∃ o, effect y = some ⟨r, some o⟩) → term.Over (time y) now := by
  by_cases hrest : ∃ y ∈ rest, effect y = some ⟨r, none⟩
  · exact .inl hrest
  · right
    intro y hy hleased
    obtain ⟨lease, heq, hle⟩ : ∃ lease, after time effect (before ++ x :: rest) r = some lease ∧
        ∀ y ∈ x :: rest, (∃ o, effect y = some ⟨r, some o⟩) → time y ≤ lease.refreshed :=
      leased_of_unreleased hx (fun y hy hreleased => hrest ⟨y, hy, hreleased⟩) hclock
    refine term.earlier (hle y hy hleased) ?_
    by_contra hover
    exact hfree lease.owner ⟨lease.refreshed, heq, hover⟩

end
end
end Registry
end NetServices.Leases
