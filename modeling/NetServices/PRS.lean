import NetServices.PRSMessage
import NetServices.PortReservation

set_option autoImplicit false

/-!
# The port reservation server

`PRS.cs`: the constructor with its loop over a 16-bit counter, and
`HandleMessage` with one clock reading for each message. A missing response is
`none`.
-/
namespace NetServices
open Utf16 (Str)

structure PRS where
  startingClientPort : UInt16
  endingClientPort : UInt16
  keepAliveTimeout : ℤ
  ports : List PortReservation
  stopped : Bool
deriving DecidableEq

namespace PRS

/-- The loop that fills the array, `none` within it being null. The counter wraps
    around, so the loop runs on fuel, and `none` means that it has run out. -/
def initLoop (startingClientPort : UInt16) :
    ℕ → UInt16 → List (Option PortReservation) → Option (List (Option PortReservation))
  | 0, _, _ => none
  | fuel + 1, i, ports =>
    if i.toNat < ports.length then
      initLoop startingClientPort fuel (i + 1)
        (ports.set i.toNat (some (.new (startingClientPort + i))))
    else some ports

/-- The constructor: `none` when the array size is negative, or when the loop has
    not ended within the fuel. -/
def construct (fuel : ℕ) (startingClientPort endingClientPort : UInt16)
    (keepAliveTimeout : ℤ) : Option PRS := do
  let numPorts : ℤ := endingClientPort.toNat - startingClientPort.toNat + 1
  guard (0 ≤ numPorts)
  let array ← initLoop startingClientPort fuel 0 (List.replicate numPorts.toNat none)
  let ports ← array.mapM id
  return {
    startingClientPort := startingClientPort
    endingClientPort := endingClientPort
    keepAliveTimeout := keepAliveTimeout
    ports := ports
    stopped := false }

def sweep (timeout : ℤ) (now : DateTime) (r : PortReservation) : PortReservation :=
  if !r.available && r.expired timeout now then r.close else r

def checkForExpiredPorts (prs : PRS) (now : DateTime) : PRS :=
  { prs with ports := prs.ports.map (sweep prs.keepAliveTimeout now) }

/-- One entry of the array changes in place. -/
def update (prs : PRS) (i : ℕ) (f : PortReservation → PortReservation) : PRS :=
  { prs with ports := prs.ports.modify i f }

def response (serviceName : Str) (port : UInt16) (status : Status) : PRSMessage where
  msgType := .response
  serviceName := serviceName
  port := port
  status := status

def requestAvaliablePort (prs : PRS) (now : DateTime) (serviceName : Str) : PRSMessage × PRS :=
  match prs.ports.findFinIdx? (·.available) with
  | some i =>
    (response serviceName prs.ports[i].port .success, prs.update i (·.reserve serviceName now))
  | none => (response serviceName 0 .allPortsBusy, prs)

def requestPort (prs : PRS) (now : DateTime) (serviceName : Str) : PRSMessage × PRS :=
  match prs.ports.findFinIdx? (fun r => !r.available && r.serviceName == serviceName) with
  | some i => (response serviceName prs.ports[i].port .serviceInUse, prs)
  | none => prs.requestAvaliablePort now serviceName

def handleKeepAlive (prs : PRS) (now : DateTime) (msg : PRSMessage) : PRSMessage × PRS :=
  match prs.ports.findFinIdx? (·.port == msg.port) with
  | some i =>
    if prs.ports[i].available then
      (response msg.serviceName msg.port .serviceNotFound, prs)
    else if prs.ports[i].serviceName = msg.serviceName then
      (response msg.serviceName msg.port .success, prs.update i (·.keepAlive now))
    else (response msg.serviceName msg.port .serviceNotFound, prs)
  | none => (response msg.serviceName msg.port .serviceNotFound, prs)

def handleClosePort (prs : PRS) (msg : PRSMessage) : PRSMessage × PRS :=
  match prs.ports.findFinIdx? (·.port == msg.port) with
  | none => (response msg.serviceName msg.port .serviceNotFound, prs)
  | some i =>
    if prs.ports[i].available || prs.ports[i].port == 0 then
      (response msg.serviceName msg.port .serviceNotFound, prs)
    else if prs.ports[i].serviceName = msg.serviceName then
      (response msg.serviceName msg.port .success, prs.update i (·.close))
    else
      -- the port is in use under another name and is closed all the same
      (response msg.serviceName msg.port .success, prs.update i (·.close))

def handleLookupPort (prs : PRS) (msg : PRSMessage) : PRSMessage :=
  match prs.ports.findFinIdx? (·.serviceName == msg.serviceName) with
  | some i => response msg.serviceName prs.ports[i].port .success
  | none => response msg.serviceName 0 .serviceNotFound

def handleMessage (prs : PRS) (now : DateTime) (msg : PRSMessage) : Option PRSMessage × PRS :=
  let prs := prs.checkForExpiredPorts now
  match msg.msgType with
  | .requestPort =>
    let prs := prs.checkForExpiredPorts now
    let (response, prs) := prs.requestPort now msg.serviceName
    (some response, prs)
  | .keepAlive =>
    let (response, prs) := prs.handleKeepAlive now msg
    (some response, prs)
  | .closePort =>
    let (response, prs) := prs.handleClosePort msg
    (some response, prs)
  | .lookupPort => (some (prs.handleLookupPort msg), prs)
  | .stop => (some (response msg.serviceName 0 .success), { prs with stopped := true })
  | .response | .unnamed _ => (none, prs)

end PRS
end NetServices
