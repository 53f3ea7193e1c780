import NetServices.FTServer

set_option autoImplicit false

/-!
# The conversation of the file transfer server

What the commands mean: a `get` is answered and the conversation goes on, `exit`
and anything else end it. `Run` has this conversation exactly as long as it is
asked for no directory that exists, since a `get` that was answered with the
files is taken for an invalid command as well.
-/
namespace NetServices.FTServer
open TextReader (Reader lines)
open Utf16 (Str lit)

/-- The answer to a `get`. -/
def answerGet (platform : Platform) (disk : Disk) (message : Str) : List UInt8 :=
  match disk (directory message) with
  | some files => files.flatMap sendFile ++ sendDone platform
  | none => sendError platform (lit "Directory does not exist.")

/-- The lines that are served, each with its answer. -/
def conversation (platform : Platform) (disks : ℕ → Disk) : ℕ → List Str → List (Str × List UInt8)
  | _, [] => []
  | k, message :: rest =>
    if platform.startsWithGet message then
      (message, answerGet platform (disks k) message) :: conversation platform disks (k + 1) rest
    else if isExit message then [(message, [])]
    else [(message, sendError platform (lit "Invalid command."))]

/-- No line that is served asks for a directory that exists. -/
def GetsMissing (platform : Platform) (disks : ℕ → Disk) : ℕ → List Str → Prop
  | _, [] => True
  | k, message :: rest => platform.startsWithGet message = true →
      disks k (directory message) = none ∧ GetsMissing platform disks (k + 1) rest

variable {platform : Platform}

theorem loopBody_missing {disk : Disk} {message : Str}
    (hget : platform.startsWithGet message = true) (hmissing : disk (directory message) = none) :
    loopBody platform disk message =
      ⟨sendError platform (lit "Directory does not exist."), false⟩ := by
  rw [loopBody, if_pos hget, hmissing]

/-- The files are followed by both trailers, and the loop ends. -/
theorem loopBody_found {disk : Disk} {message : Str} {files : List File}
    (hget : platform.startsWithGet message = true)
    (hfound : disk (directory message) = some files) :
    loopBody platform disk message = ⟨files.flatMap sendFile ++ sendDone platform ++
      sendError platform (lit "Invalid command."), true⟩ := by
  rw [loopBody, if_pos hget, hfound]
  simp only [endPass, platform.get_ne_exit message hget, Bool.false_eq_true, if_false]

theorem loopBody_other (disk : Disk) {message : Str}
    (hget : ¬ platform.startsWithGet message = true) : loopBody platform disk message =
      ⟨if isExit message then [] else sendError platform (lit "Invalid command."), true⟩ := by
  rw [loopBody, if_neg hget, endPass]
  split_ifs <;> rfl

/-- The loop goes on after a line exactly if that asks for a directory that does not exist. -/
theorem loopBody_done (disk : Disk) (message : Str) :
    (loopBody platform disk message).done = false ↔
      platform.startsWithGet message = true ∧ disk (directory message) = none := by
  by_cases hget : platform.startsWithGet message = true
  · cases hdisk : disk (directory message) with
    | none =>
      rw [loopBody_missing hget hdisk]
      exact iff_of_true rfl ⟨hget, rfl⟩
    | some files =>
      rw [loopBody_found hget hdisk]
      exact iff_of_false (fun h => nomatch h) fun h => nomatch h.2
  · rw [loopBody_other disk hget]
    exact iff_of_false (fun h => nomatch h) fun h => hget h.1

theorem sendError_ne_nil (platform : Platform) (errorMessage : Str) :
    sendError platform errorMessage ≠ [] := by
  intro h
  cases h

variable {disks : ℕ → Disk}

theorem loop_cons (fuel k : ℕ) {r : Reader} (hchars : r.chars ≠ []) :
    loop platform disks (fuel + 1) k r =
      if (loopBody platform (disks k) (TextReader.splitLine r.chars).1).done then
        some [((TextReader.splitLine r.chars).1,
          (loopBody platform (disks k) (TextReader.splitLine r.chars).1).sent)]
      else (loop platform disks fuel (k + 1)
        { r with chars := (TextReader.splitLine r.chars).2 }).map
        (((TextReader.splitLine r.chars).1,
          (loopBody platform (disks k) (TextReader.splitLine r.chars).1).sent) :: ·) := by
  rw [loop, Reader.readLine, if_neg hchars]

theorem loop_eq_conversation_iff {fuel : ℕ} {r : Reader} (k : ℕ) (hfuel : r.chars.length < fuel) :
    loop platform disks fuel k r = some (conversation platform disks k (lines r.chars)) ↔
      GetsMissing platform disks k (lines r.chars) := by
  induction fuel generalizing k r with
  | zero => cases hfuel
  | succ fuel ih =>
    by_cases hchars : r.chars = []
    · rw [loop, Reader.readLine, if_pos hchars, hchars]
      exact iff_of_true rfl trivial
    · have hlt := TextReader.splitLine_shorter hchars
      rw [TextReader.lines_cons hchars, loop_cons fuel k hchars]
      generalize (TextReader.splitLine r.chars).1 = message
      rw [conversation, GetsMissing]
      by_cases hget : platform.startsWithGet message = true
      · rw [if_pos hget]
        cases hdisk : disks k (directory message) with
        | none =>
          have hrest := ih (r := { r with chars := (TextReader.splitLine r.chars).2 }) (k + 1)
            (by simp only; omega)
          rw [loopBody_missing hget hdisk, answerGet, hdisk]
          simp only [Bool.false_eq_true, if_false, hget, true_implies, true_and]
          rw [← hrest, Option.map_eq_some_iff]
          constructor
          · rintro ⟨rest, hloop, hrest⟩
            rw [hloop, (List.cons.inj hrest).2]
          · exact fun hloop => ⟨_, hloop, rfl⟩
        | some files =>
          rw [loopBody_found hget hdisk, answerGet, hdisk]
          simp only [if_true, Option.some.injEq, List.cons.injEq, Prod.mk.injEq, true_and]
          refine iff_of_false (fun h => ?_) (fun h => absurd (h hget).1 (Option.some_ne_none files))
          exact sendError_ne_nil _ _ (List.append_right_eq_self.mp h.1)
      · rw [if_neg hget, loopBody_other _ hget]
        refine iff_of_true ?_ fun h => absurd h hget
        simp only [if_true]
        split_ifs <;> rfl

/-- `Run` has the conversation of its commands exactly if it is asked for no directory
    that exists. -/
theorem run_eq_conversation_iff (platform : Platform) (disks : ℕ → Disk) (r : Reader) :
    run platform disks r = some (conversation platform disks 0 (lines r.chars)) ↔
      GetsMissing platform disks 0 (lines r.chars) :=
  loop_eq_conversation_iff 0 (Nat.lt_succ_self _)

/-- A platform on which strings are compared by their characters. -/
def Platform.ordinal : Platform where
  newLine := lit "\n"
  isNewLine := TextReader.isNewLine_lf
  startsWithGet message := message.take 4 == lit "get "
  get_length message h := by
    have hlength := congrArg List.length (beq_iff_eq.mp h)
    rw [List.length_take, show (lit "get ").length = 4 from rfl] at hlength
    omega
  get_ne_exit message h := by
    cases message with
    | nil => rfl
    | cons u message =>
      have hu : u = 0x67 := List.head_eq_of_cons_eq (beq_iff_eq.mp h)
      subst hu
      rfl

/-- An empty directory is answered and refused. -/
theorem found_directory_refused :
    let disks : ℕ → Disk := fun _ name => if name = lit "d" then some [] else none
    run .ordinal disks ⟨lit "get d\nget d\n", []⟩ =
        some [(lit "get d", sendDone .ordinal ++ sendError .ordinal (lit "Invalid command."))] ∧
      run .ordinal disks ⟨lit "get d\nget d\n", []⟩ ≠
        some (conversation .ordinal disks 0 (lines (lit "get d\nget d\n"))) :=
  ⟨by decide, by decide⟩

end NetServices.FTServer
