import Mathlib.Tactic.Common
import Mathlib.Data.Nat.Notation

set_option autoImplicit false

/-!
# Sixteen-bit values in host and network byte order

The conversions go through signed values, as the platform's own do. Which of
the two orders the host uses is a parameter, and the two ends of a wire need
not use the same one.
-/
namespace NetServices.ByteOrder

inductive Endian where
  | little
  | big
deriving DecidableEq

/-- The bytes of a value in the order of the host. -/
def getBytes : Endian → UInt16 → List UInt8
  | .little, v => [UInt8.ofNat (v.toNat % 256), UInt8.ofNat (v.toNat / 256)]
  | .big, v => [UInt8.ofNat (v.toNat / 256), UInt8.ofNat (v.toNat % 256)]

/-- Two bytes read in the order of the host. -/
def toInt16 : Endian → UInt8 → UInt8 → Int16
  | .little, a, b => (UInt16.ofNat (a.toNat + 256 * b.toNat)).toInt16
  | .big, a, b => (UInt16.ofNat (256 * a.toNat + b.toNat)).toInt16

def reverseEndianness (v : Int16) : Int16 :=
  (UInt16.ofNat (v.toUInt16.toNat % 256 * 256 + v.toUInt16.toNat / 256)).toInt16

def hostToNetworkOrder : Endian → Int16 → Int16
  | .little, v => reverseEndianness v
  | .big, v => v

def networkToHostOrder : Endian → Int16 → Int16
  | .little, v => reverseEndianness v
  | .big, v => v

theorem reverse_toUInt16 (v : Int16) : (reverseEndianness v).toUInt16 =
    UInt16.ofNat (v.toUInt16.toNat % 256 * 256 + v.toUInt16.toNat / 256) := by
  rw [reverseEndianness, UInt16.toUInt16_toInt16]

theorem toNat_swapped {n : ℕ} (h : n < 65536) :
    (UInt16.ofNat (n % 256 * 256 + n / 256)).toNat = n % 256 * 256 + n / 256 := by
  rw [UInt16.toNat_ofNat']
  exact Nat.mod_eq_of_lt (by omega)

/-- On every host the network bytes of a value are its high byte and its low byte. -/
theorem network_bytes (e : Endian) (v : UInt16) :
    getBytes e (hostToNetworkOrder e v.toInt16).toUInt16 =
      [UInt8.ofNat (v.toNat / 256), UInt8.ofNat (v.toNat % 256)] := by
  have hv : v.toNat < 65536 := v.toNat_lt
  cases e with
  | little =>
    simp only [hostToNetworkOrder, reverse_toUInt16, getBytes, UInt16.toUInt16_toInt16,
      toNat_swapped hv]
    have h1 : (v.toNat % 256 * 256 + v.toNat / 256) % 256 = v.toNat / 256 := by omega
    have h2 : (v.toNat % 256 * 256 + v.toNat / 256) / 256 = v.toNat % 256 := by omega
    rw [h1, h2]
  | big => rw [hostToNetworkOrder, getBytes, UInt16.toUInt16_toInt16]

/-- Reading two network bytes gives the value they spell, on every host. -/
theorem read_network (e : Endian) (a b : UInt8) :
    (networkToHostOrder e (toInt16 e a b)).toUInt16 = UInt16.ofNat (256 * a.toNat + b.toNat) := by
  have ha : a.toNat < 256 := a.toNat_lt
  have hb : b.toNat < 256 := b.toNat_lt
  cases e with
  | little =>
    have hn : (UInt16.ofNat (a.toNat + 256 * b.toNat)).toNat = a.toNat + 256 * b.toNat := by
      rw [UInt16.toNat_ofNat']
      exact Nat.mod_eq_of_lt (by omega)
    simp only [networkToHostOrder, reverse_toUInt16, toInt16, UInt16.toUInt16_toInt16, hn]
    congr 1
    omega
  | big => rw [networkToHostOrder, toInt16, UInt16.toUInt16_toInt16]

theorem read_written (e : Endian) (v : UInt16) :
    (networkToHostOrder e (toInt16 e (UInt8.ofNat (v.toNat / 256))
      (UInt8.ofNat (v.toNat % 256)))).toUInt16 = v := by
  have hv : v.toNat < 65536 := v.toNat_lt
  rw [read_network]
  apply UInt16.toNat_inj.mp
  simp only [UInt16.toNat_ofNat', UInt8.toNat_ofNat']
  omega

theorem written_read (e e' : Endian) (a b : UInt8) :
    getBytes e (hostToNetworkOrder e
      (networkToHostOrder e' (toInt16 e' a b)).toUInt16.toInt16).toUInt16 = [a, b] := by
  have ha : a.toNat < 256 := a.toNat_lt
  have hb : b.toNat < 256 := b.toNat_lt
  have hn : (UInt16.ofNat (256 * a.toNat + b.toNat)).toNat = 256 * a.toNat + b.toNat := by
    rw [UInt16.toNat_ofNat']
    exact Nat.mod_eq_of_lt (by omega)
  have hdiv : (256 * a.toNat + b.toNat) / 256 = a.toNat := by omega
  have hmod : (256 * a.toNat + b.toNat) % 256 = b.toNat := by omega
  rw [network_bytes, read_network, hn, hdiv, hmod, UInt8.ofNat_toNat, UInt8.ofNat_toNat]

end NetServices.ByteOrder
