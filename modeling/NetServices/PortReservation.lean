import NetServices.Utf16
import NetServices.Clock
import Mathlib.Data.Int.Notation

set_option autoImplicit false

/-!
# Port reservations

`PortReservation.cs`. A timeout in seconds is compared exactly, in ticks; the
source compares in double precision, which is exact for ages below 2^53 ticks.
-/
namespace NetServices
open Utf16 (Str)

/-- An available port carries no service name and no sign of life. -/
structure PortReservation where
  port : UInt16
  available : Bool
  serviceName : Str
  lastAlive : DateTime
  free : available = true → serviceName = [] ∧ lastAlive = DateTime.minValue
deriving DecidableEq

namespace PortReservation

def new (port : UInt16) : PortReservation where
  port := port
  available := true
  serviceName := []
  lastAlive := DateTime.minValue
  free := fun _ => ⟨rfl, rfl⟩

/-- An age of 2 ^ 53 ticks or more, over 28 years, can be rounded by the source. -/
def expired (timeout : ℤ) (now : DateTime) (r : PortReservation) : Bool :=
  timeout * DateTime.ticksPerSecond < (now : ℤ) - (r.lastAlive : ℤ)

def reserve (serviceName : Str) (now : DateTime) (r : PortReservation) : PortReservation :=
  if r.available then
    { r with
      serviceName := serviceName
      available := false
      lastAlive := now
      free := fun h => nomatch h }
  else r

def keepAlive (now : DateTime) (r : PortReservation) : PortReservation :=
  if h : r.available then r
  else { r with lastAlive := now, free := fun ha => absurd ha h }

def close (r : PortReservation) : PortReservation :=
  { r with
    serviceName := []
    available := true
    lastAlive := DateTime.minValue
    free := fun _ => ⟨rfl, rfl⟩ }

/-- Held under some name, and not for too long since it was last alive. -/
def Live (timeout : ℤ) (now : DateTime) (r : PortReservation) : Prop :=
  r.available = false ∧ r.expired timeout now = false

instance (timeout : ℤ) (now : DateTime) (r : PortReservation) : Decidable (r.Live timeout now) :=
  inferInstanceAs (Decidable (_ ∧ _))

theorem expired_iff (timeout : ℤ) (now : DateTime) (r : PortReservation) :
    r.expired timeout now = true ↔
      timeout * DateTime.ticksPerSecond < (now : ℤ) - (r.lastAlive : ℤ) := by
  rw [expired, decide_eq_true_eq]

theorem reserve_of_available {r : PortReservation} (serviceName : Str) (now : DateTime)
    (h : r.available = true) :
    (r.reserve serviceName now).port = r.port ∧
    (r.reserve serviceName now).available = false ∧
    (r.reserve serviceName now).serviceName = serviceName ∧
    (r.reserve serviceName now).lastAlive = now := by
  rw [reserve, if_pos h]
  exact ⟨rfl, rfl, rfl, rfl⟩

@[simp] theorem reserve_port (serviceName : Str) (now : DateTime) (r : PortReservation) :
    (r.reserve serviceName now).port = r.port := by
  unfold reserve
  split_ifs <;> rfl

@[simp] theorem keepAlive_port (now : DateTime) (r : PortReservation) :
    (r.keepAlive now).port = r.port := by
  unfold keepAlive
  split_ifs <;> rfl

@[simp] theorem keepAlive_available (now : DateTime) (r : PortReservation) :
    (r.keepAlive now).available = r.available := by
  unfold keepAlive
  split_ifs <;> rfl

@[simp] theorem keepAlive_serviceName (now : DateTime) (r : PortReservation) :
    (r.keepAlive now).serviceName = r.serviceName := by
  unfold keepAlive
  split_ifs <;> rfl

theorem keepAlive_lastAlive {r : PortReservation} (now : DateTime) (h : r.available = false) :
    (r.keepAlive now).lastAlive = now := by
  rw [keepAlive, dif_neg (by rw [h]; exact Bool.false_ne_true)]

@[simp] theorem close_port (r : PortReservation) : r.close.port = r.port := rfl

end PortReservation
end NetServices
