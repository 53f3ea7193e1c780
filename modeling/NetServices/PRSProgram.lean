import NetServices.Numerals
import NetServices.PRSServer
import NetServices.PRSStart

set_option autoImplicit false

/-!
# The program of the port reservation server

`Program.cs` from its command line on: the options, the check of the range, the
constructor and the main loop. The program serves exactly if its command line is
made of options with values that parse, the last value of each option gives a
range that is neither empty nor all of the ports, and its socket can be bound;
then it keeps that range for as long as it runs.
-/
namespace NetServices.PRSProgram
open ByteOrder (Endian)
open PRSServer (Pass Server loopBody)
open Utf16 (Str lit)

structure Options where
  serverPort : UInt16
  startingClientPort : UInt16
  endingClientPort : UInt16
  keepAliveTimeout : ℤ
deriving DecidableEq

def defaults : Options := ⟨30000, 40000, 40099, 10⟩

/-- An option with its value. -/
inductive Setting where
  | serverPort (port : UInt16)
  | startingClientPort (port : UInt16)
  | endingClientPort (port : UInt16)
  | keepAliveTimeout (seconds : ℤ)
deriving DecidableEq

def Setting.apply (options : Options) : Setting → Options
  | .serverPort port => { options with serverPort := port }
  | .startingClientPort port => { options with startingClientPort := port }
  | .endingClientPort port => { options with endingClientPort := port }
  | .keepAliveTimeout seconds => { options with keepAliveTimeout := seconds }

def toUShort (value : ℤ) : Option UInt16 :=
  if 0 ≤ value ∧ value < 65536 then some (UInt16.ofNat value.toNat) else none

/-- `ushort.Parse`. -/
def parseUShort (s : Str) : Option UInt16 := (Numerals.parseInteger s).bind toUShort

/-- How the value of an option is read; none if the argument is no option. -/
def option (arg : Str) : Option (Str → Option Setting) :=
  if arg = lit "-p" then some fun value => (parseUShort value).map .serverPort
  else if arg = lit "-s" then some fun value => (parseUShort value).map .startingClientPort
  else if arg = lit "-e" then some fun value => (parseUShort value).map .endingClientPort
  else if arg = lit "-t" then
    some fun value => (Numerals.parseInt (some value)).map .keepAliveTimeout
  else none

inductive Ended where
  /-- The usage message. -/
  | usage
  /-- A value is missing or does not parse, and nothing catches the exception. -/
  | raised
  /-- "Error: Starting client port must be less than or equal to ending client port." -/
  | range
  /-- The socket cannot be had or bound, and nothing catches the exception. -/
  | bind
deriving DecidableEq

def processOptions (options : Options) : List Str → Except Ended Options
  | [] => .ok options
  | [arg] => .error (if (option arg).isSome then .raised else .usage)
  | arg :: value :: args =>
    match option arg with
    | none => .error .usage
    | some read =>
      match read value with
      | none => .error .raised
      | some setting => processOptions (setting.apply options) args

/-- What the program comes to before its main loop; none while the constructor runs. The host
    says to which ports it can bind a socket. -/
def main (bound : UInt16 → Bool) (fuel : ℕ) (args : List Str) :
    Option (Except Ended (Options × PRS)) :=
  match processOptions defaults args with
  | .error ended => some (.error ended)
  | .ok options =>
    if options.endingClientPort < options.startingClientPort then some (.error .range)
    else (PRS.construct fuel options.startingClientPort options.endingClientPort
      options.keepAliveTimeout).map fun prs =>
        if bound options.serverPort then .ok (options, prs) else .error .bind

/-- The arguments are these options with their values. -/
inductive Spells : List Str → List Setting → Prop where
  | nil : Spells [] []
  | cons {arg value : Str} {args : List Str} {settings : List Setting}
      {read : Str → Option Setting} {setting : Setting} (known : option arg = some read)
      (parsed : read value = some setting) (rest : Spells args settings) :
      Spells (arg :: value :: args) (setting :: settings)

def Setting.serverPort? : Setting → Option UInt16
  | .serverPort port => some port
  | _ => none

def Setting.startingClientPort? : Setting → Option UInt16
  | .startingClientPort port => some port
  | _ => none

def Setting.endingClientPort? : Setting → Option UInt16
  | .endingClientPort port => some port
  | _ => none

def Setting.keepAliveTimeout? : Setting → Option ℤ
  | .keepAliveTimeout seconds => some seconds
  | _ => none

/-- The last value that is given, or the default. -/
def last {α : Type} (settings : List Setting) (value : Setting → Option α) (default : α) : α :=
  (settings.reverse.findSome? value).getD default

/-- The last values of the options. -/
def given (settings : List Setting) (options : Options) : Options where
  serverPort := last settings Setting.serverPort? options.serverPort
  startingClientPort := last settings Setting.startingClientPort? options.startingClientPort
  endingClientPort := last settings Setting.endingClientPort? options.endingClientPort
  keepAliveTimeout := last settings Setting.keepAliveTimeout? options.keepAliveTimeout

theorem processOptions_eq_ok_iff {options options' : Options} {args : List Str} :
    processOptions options args = .ok options' ↔
      ∃ settings, Spells args settings ∧ options' = settings.foldl Setting.apply options := by
  constructor
  · intro h
    fun_induction processOptions options args with
    | case1 options => exact ⟨[], .nil, (Except.ok.inj h).symm⟩
    | case2 options arg => cases h
    | case3 options arg value args unknown => cases h
    | case4 options arg value args read known raised => cases h
    | case5 options arg value args read known setting parsed ih =>
      obtain ⟨settings, hspells, hoptions⟩ := ih h
      exact ⟨setting :: settings, .cons known parsed hspells, hoptions⟩
  · rintro ⟨settings, hspells, rfl⟩
    induction hspells generalizing options with
    | nil => rfl
    | cons known parsed rest ih =>
      simp only [processOptions, known, parsed]
      exact ih

theorem last_concat {α : Type} (settings : List Setting) (setting : Setting)
    (value : Setting → Option α) (default : α) :
    last (settings ++ [setting]) value default =
      (value setting).getD (last settings value default) := by
  rw [last, List.reverse_append, List.reverse_singleton, List.singleton_append, List.findSome?_cons]
  cases value setting <;> rfl

/-- Of each option the last value counts. -/
theorem foldl_apply (options : Options) (settings : List Setting) :
    settings.foldl Setting.apply options = given settings options := by
  induction settings using List.reverseRecOn with
  | nil => rfl
  | append_singleton settings setting ih =>
    rw [List.foldl_append, ih]
    simp only [given, last_concat]
    cases setting <;> rfl

/-- The program reaches its main loop with a new table for the range of its options. -/
theorem main_eq_ok_iff {bound : UInt16 → Bool} {fuel : ℕ} {args : List Str} {options : Options}
    {prs : PRS} :
    main bound fuel args = some (.ok (options, prs)) ↔
      processOptions defaults args = .ok options ∧
      options.startingClientPort ≤ options.endingClientPort ∧
      bound options.serverPort = true ∧
      PRS.construct fuel options.startingClientPort options.endingClientPort
        options.keepAliveTimeout = some prs := by
  rw [main]
  cases processOptions defaults args with
  | error ended => exact iff_of_false (by simp) fun h => by cases h.1
  | ok options' =>
    simp only [Except.ok.injEq]
    by_cases hrange : options'.endingClientPort < options'.startingClientPort
    · rw [if_pos hrange]
      refine iff_of_false (by simp) ?_
      rintro ⟨rfl, hle, -⟩
      exact UInt16.not_lt.mpr hle hrange
    · rw [if_neg hrange, Option.map_eq_some_iff]
      constructor
      · rintro ⟨prs', hconstruct, hsame⟩
        by_cases hbound : bound options'.serverPort = true
        · rw [if_pos hbound] at hsame
          obtain ⟨rfl, rfl⟩ := Prod.mk.inj (Except.ok.inj hsame)
          exact ⟨rfl, UInt16.not_lt.mp hrange, hbound, hconstruct⟩
        · rw [if_neg hbound] at hsame
          cases hsame
      · rintro ⟨rfl, -, hbound, hconstruct⟩
        exact ⟨prs, hconstruct, if_pos hbound⟩

theorem update_ports_port (prs : PRS) (i : ℕ) {f : PortReservation → PortReservation}
    (hf : ∀ r, (f r).port = r.port) :
    (prs.update i f).ports.map PortReservation.port = prs.ports.map PortReservation.port := by
  refine List.ext_getElem? fun j => ?_
  rw [PRS.update_ports, List.getElem?_map, List.getElem?_map, List.getElem?_modify]
  cases prs.ports[j]? with
  | none => rfl
  | some r =>
    simp only [Option.map_eq_map, Option.map_some]
    split_ifs
    · rw [hf]
    · rfl

/-- No message changes which ports there are. -/
theorem handleMessage_ports (prs : PRS) (now : DateTime) (msg : PRSMessage) :
    (prs.handleMessage now msg).2.ports.map PortReservation.port =
      prs.ports.map PortReservation.port := by
  have hsweep : (prs.checkForExpiredPorts now).ports.map PortReservation.port =
      prs.ports.map PortReservation.port := by
    rw [PRS.checkForExpiredPorts, List.map_map]
    exact List.map_congr_left fun r _ => PRS.sweep_port prs.keepAliveTimeout now r
  have hchange := PRS.handleMessage_change prs now msg
  rw [← hsweep]
  generalize (prs.handleMessage now msg).1 = reply at hchange
  generalize (prs.handleMessage now msg).2 = prs' at hchange ⊢
  cases hchange with
  | granted i r => exact update_ports_port _ i (PortReservation.reserve_port msg.serviceName now)
  | refreshed i r => exact update_ports_port _ i (PortReservation.keepAlive_port now)
  | released i r => exact update_ports_port _ i PortReservation.close_port
  | _ => rfl

section
variable {ε : Type}

theorem run_ports (e : Endian) (srv : Server ε) (passes : List (Pass ε)) :
    (passes.foldl (loopBody e) srv).prs.ports.map PortReservation.port =
      srv.prs.ports.map PortReservation.port := by
  induction passes generalizing srv with
  | nil => rfl
  | cons pass passes ih =>
    rw [List.foldl_cons, ih, loopBody]
    split_ifs
    · rfl
    · cases pass.received with
      | failed | oversized sender => rw [PRSServer.sendError_prs]
      | delivered bytes sender =>
        simp only [PRSServer.respond_prs]
        exact handleMessage_ports srv.prs pass.now _

/-- The program serves with these options, on the ports of the range, whatever it receives. -/
def Serves (bound : UInt16 → Bool) (e : Endian) (endpoint : ε) (args : List Str)
    (options : Options) : Prop :=
  ∃ prs, (∀ fuel, options.endingClientPort.toNat - options.startingClientPort.toNat + 1 < fuel →
    main bound fuel args = some (.ok (options, prs))) ∧
    ∀ passes : List (Pass ε),
      (passes.foldl (loopBody e) ⟨options.serverPort, prs, endpoint, []⟩).prs.ports.map
          (fun r => r.port.toNat) =
        List.range' options.startingClientPort.toNat
          (options.endingClientPort.toNat - options.startingClientPort.toNat + 1)

/-- The program serves exactly if its arguments are options with values, of which the last
    ones count, the range is neither empty nor all of the ports, and the socket can be bound
    to the port that the options give. -/
theorem serves_iff (bound : UInt16 → Bool) (e : Endian) (endpoint : ε) (args : List Str)
    (options : Options) :
    Serves bound e endpoint args options ↔
      options.startingClientPort ≤ options.endingClientPort ∧
      ¬ (options.startingClientPort = 0 ∧ options.endingClientPort = 65535) ∧
      bound options.serverPort = true ∧
      ∃ settings, Spells args settings ∧ options = given settings defaults := by
  simp only [← foldl_apply, ← processOptions_eq_ok_iff]
  constructor
  · rintro ⟨prs, hmain, -⟩
    have hlarge := hmain 65537 (by have := options.endingClientPort.toNat_lt; omega)
    obtain ⟨hprocessed, hle, hbound, hconstruct⟩ := main_eq_ok_iff.mp hlarge
    refine ⟨hle, ?_, hbound, hprocessed⟩
    rintro ⟨hstart, hending⟩
    rw [hstart, hending, PRS.construct_stuck] at hconstruct
    cases hconstruct
  · rintro ⟨hle, hpart, hbound, hprocessed⟩
    obtain ⟨prs, hends, hlength, hports⟩ :=
      (PRS.construct_ends_iff options.keepAliveTimeout hle).1.mpr hpart
    refine ⟨prs, fun fuel hfuel =>
      main_eq_ok_iff.mpr ⟨hprocessed, hle, hbound, hends fuel hfuel⟩, ?_⟩
    intro passes
    have hrun := run_ports e ⟨options.serverPort, prs, endpoint, []⟩ passes
    have hmap := congrArg (List.map UInt16.toNat) hrun
    rw [List.map_map, List.map_map] at hmap
    refine hmap.trans (List.ext_getElem ?_ fun i hi _ => ?_)
    · rw [List.length_map, List.length_range', hlength]
    · rw [List.length_map] at hi
      rw [List.getElem_map, List.getElem_range', Nat.one_mul]
      exact hports i prs.ports[i] (List.getElem?_eq_getElem hi)

example : processOptions defaults [lit "-s", lit "1", lit "-e", lit "2", lit "-s", lit " 2"] =
    .ok ⟨30000, 2, 2, 10⟩ := by decide

end
end NetServices.PRSProgram
