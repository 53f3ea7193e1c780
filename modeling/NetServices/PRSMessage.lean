import NetServices.Utf8
import NetServices.ByteOrder
import Mathlib.Data.List.DropRight
import Mathlib.Tactic.IntervalCases

set_option autoImplicit false

/-!
# Port reservation messages and their 54 bytes

The message of `PRSMessage.cs`, its decoding constructor and `GetBytes`. The
service name takes bytes 1 to 50 in UTF-8, padded with NUL, the port is in
network byte order at 51 and 52. `none` stands for a raised exception.
-/
namespace NetServices
open Utf16 (Str)
open ByteOrder (Endian)

/-- `MESSAGE_TYPE`. An enumeration variable can hold any integer, named or not. -/
inductive MessageType where
  | requestPort
  | lookupPort
  | keepAlive
  | closePort
  | stop
  | response
  | unnamed (value : {n : ℤ // ¬ (0 ≤ n ∧ n ≤ 5)})
deriving DecidableEq

def MessageType.toInt : MessageType → ℤ
  | .requestPort => 0
  | .lookupPort => 1
  | .keepAlive => 2
  | .closePort => 3
  | .stop => 4
  | .response => 5
  | .unnamed value => value.val

def MessageType.ofInt (n : ℤ) : MessageType :=
  if h : 0 ≤ n ∧ n ≤ 5 then
    match n.toNat with
    | 0 => .requestPort
    | 1 => .lookupPort
    | 2 => .keepAlive
    | 3 => .closePort
    | 4 => .stop
    | _ => .response
  else .unnamed ⟨n, h⟩

inductive Status where
  | success
  | serviceInUse
  | serviceNotFound
  | allPortsBusy
  | invalidArg
  | undefinedError
  | unnamed (value : {n : ℤ // ¬ (0 ≤ n ∧ n ≤ 5)})
deriving DecidableEq

def Status.toInt : Status → ℤ
  | .success => 0
  | .serviceInUse => 1
  | .serviceNotFound => 2
  | .allPortsBusy => 3
  | .invalidArg => 4
  | .undefinedError => 5
  | .unnamed value => value.val

def Status.ofInt (n : ℤ) : Status :=
  if h : 0 ≤ n ∧ n ≤ 5 then
    match n.toNat with
    | 0 => .success
    | 1 => .serviceInUse
    | 2 => .serviceNotFound
    | 3 => .allPortsBusy
    | 4 => .invalidArg
    | _ => .undefinedError
  else .unnamed ⟨n, h⟩

theorem MessageType.ofInt_toInt (t : MessageType) : ofInt t.toInt = t := by
  cases t with
  | unnamed value => exact dif_neg value.property
  | _ => rfl

theorem MessageType.toInt_ofInt (n : ℤ) : (ofInt n).toInt = n := by
  by_cases h : 0 ≤ n ∧ n ≤ 5
  · obtain ⟨h0, h5⟩ := h
    interval_cases n <;> rfl
  · rw [ofInt, dif_neg h]
    rfl

theorem Status.ofInt_toInt (s : Status) : ofInt s.toInt = s := by
  cases s with
  | unnamed value => exact dif_neg value.property
  | _ => rfl

theorem Status.toInt_ofInt (n : ℤ) : (ofInt n).toInt = n := by
  by_cases h : 0 ≤ n ∧ n ≤ 5
  · obtain ⟨h0, h5⟩ := h
    interval_cases n <;> rfl
  · rw [ofInt, dif_neg h]
    rfl

structure PRSMessage where
  msgType : MessageType
  serviceName : Str
  port : UInt16
  status : Status
deriving DecidableEq

namespace PRSMessage

def msgSize : ℕ := 54

/-- The buffer of one datagram. -/
structure Datagram where
  bytes : List UInt8
  size : bytes.length = msgSize
deriving DecidableEq

/-- The unchecked cast of an enumeration value to a byte. -/
def toByte (n : ℤ) : UInt8 := UInt8.ofNat (n % 256).toNat

/-- `Array.CopyTo`, which raises when the destination is too short. -/
def copyTo (src dst : List UInt8) (index : ℕ) : Option (List UInt8) :=
  if index + src.length ≤ dst.length then
    some (dst.take index ++ src ++ dst.drop (index + src.length))
  else none

/-- `UTF8.GetString`: every ill-formed part becomes U+FFFD. -/
def utf8GetString (bytes : List UInt8) : Str := Utf16.encode (Utf8.decode bytes)

/-- `UTF8.GetBytes`: every unpaired surrogate is written as U+FFFD. -/
def utf8GetBytes (s : Str) : List UInt8 := Utf8.encode (Utf16.decode s)

def trimEnd (c : UInt16) (s : Str) : Str := s.rdropWhile (· == c)

/-- The decoding constructor. -/
def ofBytes (e : Endian) (d : Datagram) : PRSMessage where
  msgType := .ofInt (d.bytes.getD 0 0).toNat
  serviceName := trimEnd 0 (utf8GetString ((d.bytes.drop 1).take 50))
  port := (ByteOrder.networkToHostOrder e
    (ByteOrder.toInt16 e (d.bytes.getD 51 0) (d.bytes.getD 52 0))).toUInt16
  status := .ofInt (d.bytes.getD 53 0).toNat

def getBytes (e : Endian) (m : PRSMessage) : Option (List UInt8) := do
  let result := (List.replicate msgSize 0).set 0 (toByte m.msgType.toInt)
  let result ← copyTo (utf8GetBytes m.serviceName) result 1
  let result ← copyTo
    (ByteOrder.getBytes e (ByteOrder.hostToNetworkOrder e m.port.toInt16).toUInt16) result 51
  return result.set 53 (toByte m.status.toInt)

end PRSMessage
end NetServices
