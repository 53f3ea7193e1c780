import Mathlib.Data.List.Induction
import Mathlib.Data.List.TakeDrop
import Mathlib.Tactic.Common
import Mathlib.Data.Nat.Notation

set_option autoImplicit false

/-!
# Where paths lead

The parts of a path are followed from a folder; `.` stays and `..` leaves it. What
the parts amount to is a number of folders to leave and names to enter, which
settles whether they lead back into the folder. How paths are read is given by the
rules of a platform.
-/
namespace NetServices.Paths

inductive Part (ν : Type) where
  | stay
  | up
  | down (name : ν)
deriving DecidableEq

section
variable {ν : Type}

/-- The folder above a root is the root. -/
def resolve (folder : List ν) : List (Part ν) → List ν
  | [] => folder
  | .stay :: parts => resolve folder parts
  | .up :: parts => resolve folder.dropLast parts
  | .down name :: parts => resolve (folder ++ [name]) parts

/-- So many folders are left, and the names are entered. -/
structure Walk (ν : Type) where
  ups : ℕ
  downs : List ν
deriving DecidableEq

def Walk.step (walk : Walk ν) : Part ν → Walk ν
  | .stay => walk
  | .up =>
    match walk.downs with
    | [] => { walk with ups := walk.ups + 1 }
    | _ :: _ => { walk with downs := walk.downs.dropLast }
  | .down name => { walk with downs := walk.downs ++ [name] }

/-- What the parts of a path amount to. -/
def walk (parts : List (Part ν)) : Walk ν := parts.foldl Walk.step ⟨0, []⟩

/-- What is left of the folder. -/
def Walk.kept (walk : Walk ν) (folder : List ν) : List ν :=
  folder.take (folder.length - walk.ups)

/-- The names of the folders that are left. -/
def Walk.left (walk : Walk ν) (folder : List ν) : List ν :=
  folder.drop (folder.length - walk.ups)

theorem resolve_append (folder : List ν) (parts parts' : List (Part ν)) :
    resolve folder (parts ++ parts') = resolve (resolve folder parts) parts' := by
  induction parts generalizing folder with
  | nil => rfl
  | cons part parts ih => cases part <;> exact ih _

theorem resolve_step (walk : Walk ν) (part : Part ν) (folder : List ν) :
    resolve (walk.kept folder ++ walk.downs) [part] =
      (walk.step part).kept folder ++ (walk.step part).downs := by
  obtain ⟨ups, downs⟩ := walk
  cases part with
  | stay => rfl
  | down name => exact List.append_assoc _ _ _
  | up =>
    cases downs with
    | nil =>
      have hleft : (folder.take (folder.length - ups)).dropLast =
          folder.take (folder.length - (ups + 1)) := by
        rw [List.dropLast_eq_take, List.take_take, List.length_take]
        congr 1
        omega
      simp only [resolve, Walk.step, Walk.kept, List.append_nil, hleft]
    | cons name names => exact List.dropLast_append_of_ne_nil (List.cons_ne_nil name names)

theorem resolve_eq_walk (folder : List ν) (parts : List (Part ν)) :
    resolve folder parts = (walk parts).kept folder ++ (walk parts).downs := by
  induction parts using List.reverseRecOn with
  | nil =>
    rw [walk, List.foldl_nil, Walk.kept, List.append_nil, Nat.sub_zero, List.take_length]
    rfl
  | append_singleton parts part ih =>
    rw [resolve_append, ih, resolve_step, walk, walk, List.foldl_append]
    rfl

/-- A walk ends in the folder or below it exactly if the names that it enters begin with
    those that it has left. -/
theorem prefix_resolve_iff (folder : List ν) (parts : List (Part ν)) :
    folder <+: resolve folder parts ↔ (walk parts).left folder <+: (walk parts).downs := by
  have hfolder : folder = (walk parts).kept folder ++ (walk parts).left folder :=
    (List.take_append_drop _ _).symm
  rw [resolve_eq_walk]
  conv_lhs => lhs; rw [hfolder]
  exact List.prefix_append_right_inj _

theorem resolve_eq_concat_iff (folder : List ν) (parts : List (Part ν)) (name : ν) :
    resolve folder parts = folder ++ [name] ↔
      (walk parts).downs = (walk parts).left folder ++ [name] := by
  have hfolder : folder = (walk parts).kept folder ++ (walk parts).left folder :=
    (List.take_append_drop _ _).symm
  rw [resolve_eq_walk]
  conv_lhs => rhs; rw [hfolder, List.append_assoc]
  exact List.append_right_inj _

end

section
variable {V ν : Type}

/-- The location is the folder, or below it. -/
def Within (folder location : V × List ν) : Prop :=
  location.1 = folder.1 ∧ folder.2 <+: location.2

/-- The location is directly inside of the folder. -/
def Child (folder location : V × List ν) : Prop :=
  ∃ name, location = (folder.1, folder.2 ++ [name])

end

/-- How a platform reads paths. A path starts at its root, which is a folder of some
    volume, and what follows the root is split at separators. -/
structure Rules (χ V ν : Type) where
  separator : χ
  isSeparator : χ → Bool
  isSeparator_separator : isSeparator separator = true
  part : List χ → Part ν
  part_nil : part [] = .stay
  isRooted : List χ → Bool
  isRooted_nil : isRooted [] = false
  root : List χ → V × List ν
  rest : List χ → List χ
  rest_suffix : ∀ path, rest path <:+ path

namespace Rules

variable {χ V ν : Type} (rules : Rules χ V ν)

def parts (path : List χ) : List (Part ν) := (path.splitOnP rules.isSeparator).map rules.part

def locate (path : List χ) : V × List ν :=
  ((rules.root path).1, resolve (rules.root path).2 (rules.parts (rules.rest path)))

def endsInSeparator (path : List χ) : Bool := path.getLast?.any rules.isSeparator

/-- What is added to the path after a separator leaves its root alone. -/
def Extends (path : List χ) : Prop :=
  ∀ more, rules.endsInSeparator path = true ∨ more.head?.any rules.isSeparator = true →
    rules.root (path ++ more) = rules.root path ∧
      rules.rest (path ++ more) = rules.rest path ++ more

def combine (path path' : List χ) : List χ :=
  if path'.isEmpty then path
  else if path.isEmpty || rules.isRooted path' then path'
  else if rules.endsInSeparator path then path ++ path'
  else path ++ rules.separator :: path'

/-- What a platform says of separators and roots is what the rules say, and its current
    directory is a full path. -/
structure Describes (separator : χ) (isPathRooted endsInSeparator : List χ → Bool)
    (currentDirectory : List χ) : Prop where
  separator_eq : separator = rules.separator
  rooted_eq : ∀ path, isPathRooted path = rules.isRooted path
  ends_eq : ∀ path, endsInSeparator path = rules.endsInSeparator path
  current_ne_nil : currentDirectory ≠ []
  current_extends : rules.Extends currentDirectory

variable {rules}

theorem Describes.combine [DecidableEq χ] {separator : χ}
    {isPathRooted endsInSeparator : List χ → Bool} {currentDirectory : List χ}
    (h : rules.Describes separator isPathRooted endsInSeparator currentDirectory)
    (path path' : List χ) :
    (if path' = [] then path
      else if path = [] || isPathRooted path' then path'
      else if endsInSeparator path then path ++ path'
      else path ++ separator :: path') = rules.combine path path' := by
  simp only [Rules.combine, List.isEmpty_iff, Bool.or_eq_true, decide_eq_true_eq, h.separator_eq,
    h.rooted_eq, h.ends_eq]

theorem parts_nil : rules.parts [] = [.stay] := by
  rw [parts, List.splitOnP_nil, List.map_singleton, rules.part_nil]

theorem parts_append {c : χ} (h : rules.isSeparator c = true) (path path' : List χ) :
    rules.parts (path ++ c :: path') = rules.parts path ++ rules.parts path' := by
  rw [parts, List.splitOnP_append_cons _ _ h, List.map_append]
  rfl

theorem resolve_parts_append {path : List χ} (folder : List ν) (path' : List χ)
    (h : path = [] ∨ rules.endsInSeparator path = true) :
    resolve folder (rules.parts (path ++ path')) =
      resolve (resolve folder (rules.parts path)) (rules.parts path') := by
  rcases List.eq_nil_or_concat path with rfl | ⟨front, c, rfl⟩
  · rw [parts_nil]
    rfl
  · rw [List.concat_eq_append] at h ⊢
    have hc : rules.isSeparator c = true := by
      rcases h with hnil | hends
      · cases List.append_ne_nil_of_right_ne_nil front (List.cons_ne_nil c []) hnil
      · rwa [endsInSeparator, List.getLast?_concat] at hends
    have hfront : rules.parts (front ++ [c]) = rules.parts front ++ [.stay] := by
      rw [parts_append hc, parts_nil]
    rw [List.append_assoc, List.singleton_append, parts_append hc, hfront, resolve_append,
      resolve_append]
    rfl

theorem rest_endsInSeparator {path : List χ} (h : rules.endsInSeparator path = true) :
    rules.rest path = [] ∨ rules.endsInSeparator (rules.rest path) = true := by
  obtain ⟨front, hfront⟩ := rules.rest_suffix path
  rcases List.eq_nil_or_concat (rules.rest path) with hnil | ⟨back, c, hrest⟩
  · exact .inl hnil
  · rw [List.concat_eq_append] at hrest
    rw [hrest] at hfront ⊢
    rw [← hfront, ← List.append_assoc, endsInSeparator, List.getLast?_concat] at h
    rw [endsInSeparator, List.getLast?_concat]
    exact .inr h

section
variable {path path' : List χ}

theorem combine_cases (hne : path ≠ []) (hrel : rules.isRooted path' = false) :
    path' = [] ∧ rules.combine path path' = path ∨
      rules.endsInSeparator path = true ∧ rules.combine path path' = path ++ path' ∨
      rules.combine path path' = path ++ rules.separator :: path' := by
  rw [combine, List.isEmpty_eq_false_iff.mpr hne, hrel, Bool.or_false, if_neg Bool.false_ne_true]
  split_ifs with hnil hends
  · exact .inl ⟨List.isEmpty_iff.mp hnil, rfl⟩
  · exact .inr (.inl ⟨hends, rfl⟩)
  · exact .inr (.inr rfl)

theorem locate_combine (hne : path ≠ []) (hextends : rules.Extends path)
    (hrel : rules.isRooted path' = false) : rules.locate (rules.combine path path') =
      ((rules.locate path).1, resolve (rules.locate path).2 (rules.parts path')) := by
  rcases combine_cases hne hrel with ⟨rfl, hpath⟩ | ⟨hends, hpath⟩ | hpath <;> rw [hpath]
  · rw [parts_nil]
    rfl
  · obtain ⟨hroot, hrest⟩ := hextends path' (.inl hends)
    rw [locate, hroot, hrest, resolve_parts_append _ _ (rest_endsInSeparator hends), locate]
  · obtain ⟨hroot, hrest⟩ := hextends (rules.separator :: path') (.inr rules.isSeparator_separator)
    rw [locate, hroot, hrest, parts_append rules.isSeparator_separator, resolve_append, locate]

theorem ne_nil_of_rooted (h : rules.isRooted path = true) : path ≠ [] := by
  rintro rfl
  exact Bool.false_ne_true (rules.isRooted_nil.symm.trans h)

theorem combine_rooted (hrooted : rules.isRooted path' = true) :
    rules.combine path path' = path' := by
  rw [combine, List.isEmpty_eq_false_iff.mpr (ne_nil_of_rooted hrooted), hrooted, Bool.or_true,
    if_neg Bool.false_ne_true, if_pos rfl]

theorem combine_ne_nil (hne : path ≠ []) : rules.combine path path' ≠ [] := by
  cases hrooted : rules.isRooted path' with
  | true =>
    rw [combine_rooted hrooted]
    exact ne_nil_of_rooted hrooted
  | false =>
    rcases combine_cases hne hrooted with ⟨-, hpath⟩ | ⟨-, hpath⟩ | hpath <;> rw [hpath]
    · exact hne
    · exact List.append_ne_nil_of_left_ne_nil hne _
    · exact List.append_ne_nil_of_left_ne_nil hne _

theorem combine_extends (hne : path ≠ []) (hextends : rules.Extends path)
    (hfull : rules.isRooted path' = true → rules.Extends path') :
    rules.Extends (rules.combine path path') := by
  -- both what was added and what is added to that are added to the path
  have hadded : ∀ added more, (∀ tail, rules.root (path ++ (added ++ tail)) = rules.root path ∧
      rules.rest (path ++ (added ++ tail)) = rules.rest path ++ (added ++ tail)) →
      rules.root (path ++ added ++ more) = rules.root (path ++ added) ∧
        rules.rest (path ++ added ++ more) = rules.rest (path ++ added) ++ more := by
    intro added more h
    obtain ⟨hroot, hrest⟩ := h []
    rw [List.append_nil] at hroot hrest
    rw [List.append_assoc, (h more).1, (h more).2, hroot, hrest, List.append_assoc]
    exact ⟨rfl, rfl⟩
  cases hrooted : rules.isRooted path' with
  | true =>
    rw [combine_rooted hrooted]
    exact hfull hrooted
  | false =>
    rcases combine_cases hne hrooted with ⟨-, hpath⟩ | ⟨hends, hpath⟩ | hpath <;> rw [hpath]
    · exact hextends
    · exact fun more _ => hadded path' more fun tail => hextends _ (.inl hends)
    · exact fun more _ => hadded (rules.separator :: path') more fun tail =>
        hextends _ (.inr rules.isSeparator_separator)

end

variable (rules)

/-- A path that is followed from a folder is rooted there or below, or it leaves only
    folders of which it then enters those that are left. -/
def StaysWithin (folder : V × List ν) (path : List χ) : Prop :=
  if rules.isRooted path then Within folder (rules.locate path)
  else (walk (rules.parts path)).left folder.2 <+: (walk (rules.parts path)).downs

/-- A path that is followed from a folder is rooted directly inside, or what it enters are
    the folders that it leaves and one name. -/
def Enters (folder : V × List ν) (path : List χ) : Prop :=
  if rules.isRooted path then Child folder (rules.locate path)
  else ∃ name, (walk (rules.parts path)).downs = (walk (rules.parts path)).left folder.2 ++ [name]

variable {rules} {path path' : List χ}

theorem within_combine_iff (hne : path ≠ []) (hextends : rules.Extends path) :
    Within (rules.locate path) (rules.locate (rules.combine path path')) ↔
      rules.StaysWithin (rules.locate path) path' := by
  rw [StaysWithin]
  split_ifs with hrooted
  · rw [combine_rooted hrooted]
  · rw [locate_combine hne hextends (Bool.eq_false_iff.mpr hrooted), ← prefix_resolve_iff]
    exact and_iff_right rfl

theorem child_combine_iff (hne : path ≠ []) (hextends : rules.Extends path) :
    Child (rules.locate path) (rules.locate (rules.combine path path')) ↔
      rules.Enters (rules.locate path) path' := by
  rw [Enters]
  split_ifs with hrooted
  · rw [combine_rooted hrooted]
  · rw [locate_combine hne hextends (Bool.eq_false_iff.mpr hrooted), Child]
    refine exists_congr fun name => ?_
    rw [← resolve_eq_concat_iff, Prod.mk.injEq]
    exact and_iff_right rfl

end Rules

/-- Paths that are split at slashes and rooted if they begin with one. -/
def slashed {χ : Type} [DecidableEq χ] (slash dot : χ) : Rules χ Unit (List χ) where
  separator := slash
  isSeparator c := c == slash
  isSeparator_separator := beq_self_eq_true slash
  part name :=
    if name = [] ∨ name = [dot] then .stay else if name = [dot, dot] then .up else .down name
  part_nil := if_pos (.inl rfl)
  isRooted path := path.head? == some slash
  isRooted_nil := rfl
  root _ := ((), [])
  rest path := path
  rest_suffix _ := List.suffix_rfl

theorem slashed_extends {χ : Type} [DecidableEq χ] (slash dot : χ) (path : List χ) :
    (slashed slash dot).Extends path :=
  fun _ _ => ⟨rfl, rfl⟩

theorem slashed_describes {χ : Type} [DecidableEq χ] (slash dot : χ) {currentDirectory : List χ}
    (h : currentDirectory ≠ []) : (slashed slash dot).Describes slash
      (fun path => path.head? == some slash) (fun path => path.getLast? == some slash)
      currentDirectory where
  separator_eq := rfl
  rooted_eq _ := rfl
  ends_eq path := by
    rw [Rules.endsInSeparator]
    cases path.getLast? <;> rfl
  current_ne_nil := h
  current_extends := slashed_extends slash dot currentDirectory

end NetServices.Paths
