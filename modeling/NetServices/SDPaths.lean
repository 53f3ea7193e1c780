import NetServices.Paths
import NetServices.SDEffects

set_option autoImplicit false

/-!
# Where posted files are written

The path of a posted file is what the name says, followed from the current
directory: only its leading slashes are taken off.
-/
namespace NetServices.SDServer
open Utf16 (Str lit)
open Exceptions
open Paths (Rules Within slashed)

/-- The platform reads paths by the rules, and its current directory is a full path. -/
def Host.Follows {V ν : Type} (host : Host) (rules : Rules UInt16 V ν) : Prop :=
  rules.Describes host.directorySeparator host.isPathRooted host.endsInSeparator
    host.currentDirectory

theorem pathCombine_eq {V ν : Type} {host : Host} {rules : Rules UInt16 V ν}
    (h : host.Follows rules) (path1 path2 : Str) :
    pathCombine host path1 path2 = rules.combine path1 path2 :=
  Rules.Describes.combine h path1 path2

/-- A posted file is written inside the current directory exactly if what follows the
    slashes of its name, followed from there, stays within. -/
theorem posted_within_iff {W V ν : Type} (env : Env W) {rules : Rules UInt16 V ν}
    (h : env.toHost.Follows rules) (now : DateTime) (σ : State W) {name content : Str}
    (hpost : (readPost σ.reader).1 = .post name content)
    (hslash : env.startsWithSlash name = true) :
    Ends (fun _ σ' => σ'.files = σ.files ++ [(postedPath env.toHost name, content)])
        (fun _ σ' => σ'.files = σ.files ++ [(postedPath env.toHost name, content)])
        (handlePost env now σ) ∧
      (Within (rules.locate env.currentDirectory)
          (rules.locate (postedPath env.toHost name)) ↔
        rules.StaysWithin (rules.locate env.currentDirectory)
          (name.dropWhile (· == 0x2F))) := by
  constructor
  · have hafter := (handlePost_answers env now σ).after
    rw [hpost, after_filed now content hslash] at hafter
    exact hafter.imp (fun _ _ hcore => congrArg Core.files hcore)
      fun _ _ hcore => congrArg Core.files hcore
  · rw [postedPath, pathCombine_eq h]
    exact Rules.within_combine_iff h.current_ne_nil h.current_extends

theorem unix_follows : Host.unix.Follows (slashed 0x2F 0x2E) :=
  Paths.slashed_describes _ _ (by decide)

/-- A connection that is about to post a file. -/
def posting (name : Str) : State Str where
  sessionId := 0
  table := .new 100
  files := []
  reader := ⟨name ++ lit "\n1\nx", []⟩
  writer := []

theorem posted_within_iff_folder :
    Ends (fun _ σ' => σ'.files = [] ++ [(lit "/srv/a/../b", lit "x")])
        (fun _ σ' => σ'.files = [] ++ [(lit "/srv/a/../b", lit "x")])
        (handlePost Host.unix.reliable 0 (posting (lit "//a/../b"))) ∧
      (Within ((slashed 0x2F 0x2E).locate (lit "/srv"))
          ((slashed 0x2F 0x2E).locate (lit "/srv/a/../b")) ↔
        (slashed 0x2F 0x2E).StaysWithin ((slashed 0x2F 0x2E).locate (lit "/srv"))
          (lit "a/../b")) :=
  posted_within_iff Host.unix.reliable unix_follows 0 (posting (lit "//a/../b"))
    (show (readPost _).1 = .post (lit "//a/../b") (lit "x") by decide) rfl

/-- A file that is posted next to the current directory. -/
theorem posted_outside :
    ∃ σ', handlePost Host.unix.reliable 0 (posting (lit "/../y")) = .ok () σ' ∧
      σ'.files = [(lit "/srv/../y", lit "x")] ∧
      (slashed 0x2F 0x2E).locate (lit "/srv/../y") = ((), [lit "y"]) ∧
      ¬ Within ((slashed 0x2F 0x2E).locate (lit "/srv"))
        ((slashed 0x2F 0x2E).locate (lit "/srv/../y")) := by
  refine ⟨_, rfl, by decide, by decide, fun h => ?_⟩
  exact absurd h.2 (by decide)

end NetServices.SDServer
