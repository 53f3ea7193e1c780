import NetServices.PRSServer

set_option autoImplicit false

/-!
# What becomes of long names

The name is copied in front of the port and the status, and those are written
over what passes its field. A name of 51 to 53 bytes is cut to 50 without an
exception, and names that differ only in what is cut are one name to the server.
-/
namespace NetServices.PRSMessage
open Utf16 (Str lit)
open ByteOrder (Endian)

/-- The bytes of a name in its field. -/
def nameField (name : List UInt8) : List UInt8 :=
  name.take 50 ++ List.replicate (50 - name.length) 0

theorem take_padded (name : List UInt8) :
    (name ++ List.replicate (53 - name.length) 0).take 50 = nameField name := by
  rw [nameField, List.take_append, List.take_replicate]
  congr 2
  omega

theorem nameField_length (name : List UInt8) : (nameField name).length = 50 := by
  rw [nameField, List.length_append, List.length_take, List.length_replicate]
  omega

theorem nameField_of_take {name name' : List UInt8} (h : name'.take 50 = name.take 50) :
    nameField name' = nameField name := by
  have hlength := congrArg List.length h
  rw [List.length_take, List.length_take] at hlength
  rw [nameField, nameField, h]
  congr 2
  omega

/-- A message of up to 53 bytes of name is a datagram, in which only the field is left. -/
theorem exists_datagram (e : Endian) {m : PRSMessage}
    (h : (utf8GetBytes m.serviceName).length ≤ 53) :
    ∃ d : Datagram, m.getBytes e = some d.bytes :=
  ⟨⟨_, m.wire_length (nameField_length (utf8GetBytes m.serviceName))⟩, by
    rw [getBytes_of_fits e m h, take_padded]⟩

theorem serviceName_read (e e' : Endian) {m : PRSMessage} {d : Datagram}
    (h : m.getBytes e = some d.bytes) :
    (ofBytes e' d).serviceName =
      trimEnd 0 (utf8GetString (nameField (utf8GetBytes m.serviceName))) := by
  have hfits : (utf8GetBytes m.serviceName).length ≤ 53 := by
    by_contra hlong
    rw [getBytes_of_long e m (by omega)] at h
    cases h
  rw [getBytes_of_fits e m hfits, take_padded] at h
  obtain ⟨bytes, size⟩ := d
  obtain rfl := Option.some.inj h
  exact congrArg serviceName (ofBytes_wire e' m (nameField_length _))

/-- Whoever reads the two messages reads different names. -/
def ToldApart (e e' : Endian) (m m' : PRSMessage) : Prop :=
  ∀ (reader : Endian) (d d' : Datagram), m.getBytes e = some d.bytes →
    m'.getBytes e' = some d'.bytes →
      (ofBytes reader d).serviceName ≠ (ofBytes reader d').serviceName

/-- A name of more than 50 bytes raises exactly if it has more than 53, and exactly then it
    is told apart from a name that differs only beyond byte 50 and does not raise itself. -/
theorem over_long_name_iff (e e' : Endian) (m : PRSMessage) :
    (m.getBytes e = none ↔ 53 < (utf8GetBytes m.serviceName).length) ∧
    ∀ m' : PRSMessage,
      (utf8GetBytes m'.serviceName).take 50 = (utf8GetBytes m.serviceName).take 50 →
      (ToldApart e e' m m' ↔ 53 < (utf8GetBytes m.serviceName).length ∨
        53 < (utf8GetBytes m'.serviceName).length) := by
  refine ⟨getBytes_eq_none_iff e m, fun m' hsame => ⟨fun hapart => ?_, ?_⟩⟩
  · by_contra hshort
    rw [not_or, Nat.not_lt, Nat.not_lt] at hshort
    obtain ⟨d, hd⟩ := exists_datagram e hshort.1
    obtain ⟨d', hd'⟩ := exists_datagram e' hshort.2
    refine hapart e d d' hd hd' ?_
    rw [serviceName_read e e hd, serviceName_read e' e hd', nameField_of_take hsame]
  · rintro (hlong | hlong) reader d d' hd hd'
    · rw [getBytes_of_long e m hlong] at hd
      cases hd
    · rw [getBytes_of_long e' m' hlong] at hd'
      cases hd'

/-- A request for a port under 50 letters and some more. -/
def longRequest (more : Str) : PRSMessage :=
  ⟨.requestPort, List.replicate 50 0x61 ++ more, 0, .success⟩

theorem over_long_name_iff_raises :
    let m := longRequest (lit "xyzx")
    let m' := longRequest (lit "y")
    (m.getBytes .little = none ↔ 53 < (utf8GetBytes m.serviceName).length) ∧
      (ToldApart .little .big m m' ↔ 53 < (utf8GetBytes m.serviceName).length ∨
        53 < (utf8GetBytes m'.serviceName).length) := by
  intro m m'
  obtain ⟨hraises, hapart⟩ := over_long_name_iff .little .big m
  exact ⟨hraises, hapart m' (by decide +kernel)⟩

/-- Two clients ask for ports under names of 51 bytes, and the second is refused as the first. -/
theorem long_names_confused :
    let first := longRequest (lit "x")
    let second := longRequest (lit "y")
    Utf16.WellFormed first.serviceName ∧ 50 < (utf8GetBytes first.serviceName).length ∧
      first.serviceName.getLast? ≠ some 0 ∧ first.serviceName ≠ second.serviceName ∧
      ∃ d : Datagram, first.getBytes .little = some d.bytes ∧
        second.getBytes .little = some d.bytes ∧
        ((PRSServer.oneFree.prs.handleMessage 0 (ofBytes .little d)).2.handleMessage 0
          (ofBytes .little d)).1 =
            some (PRS.response (List.replicate 50 0x61) 40000 .serviceInUse) := by
  intro first second
  have hname : first.serviceName = lit "aaaaaaaaaaaaaaaaaaaaaaaaaaaaaaaaaaaaaaaaaaaaaaaaaax" := by
    decide +kernel
  refine ⟨hname ▸ Utf16.wellFormed_lit _, by decide +kernel, by decide +kernel,
    by decide +kernel, ⟨0 :: (List.replicate 50 0x61 ++ [0, 0, 0]), rfl⟩, ?_⟩
  exact ⟨by decide +kernel, by decide +kernel, by decide +kernel⟩

end NetServices.PRSMessage
