import NetServices.PRSMessage

set_option autoImplicit false

/-!
# The two directions of the message format

`getBytes` fails exactly on names of more than 53 bytes, and on names that fit
their field it is inverse to the decoding constructor. The writing host and the
reading host may differ in byte order.
-/
namespace NetServices.PRSMessage
open Utf16 (Str)
open ByteOrder (Endian)

/-- The 54 bytes of a message whose name field holds `name`. -/
def wire (m : PRSMessage) (name : List UInt8) : List UInt8 :=
  toByte m.msgType.toInt :: (name ++ [UInt8.ofNat (m.port.toNat / 256),
    UInt8.ofNat (m.port.toNat % 256), toByte m.status.toInt])

/-- Which host reads a datagram makes no difference. -/
theorem ofBytes_host (e e' : Endian) (d : Datagram) : ofBytes e d = ofBytes e' d := by
  rw [ofBytes, ByteOrder.read_network, ofBytes, ByteOrder.read_network]

/-- Which host writes a message makes no difference. -/
theorem getBytes_host (e e' : Endian) (m : PRSMessage) : m.getBytes e = m.getBytes e' := by
  rw [getBytes, ByteOrder.network_bytes, getBytes, ByteOrder.network_bytes]

theorem set_last_byte (t p q x s : UInt8) (name : List UInt8) (h : name.length = 50) :
    (t :: name ++ [p, q] ++ [x]).set 53 s = t :: (name ++ [p, q, s]) := by
  have hl : (t :: name ++ [p, q]).length = 53 := by simp [h]
  rw [List.set_append_right _ _ (by omega), hl]
  simp

theorem getBytes_of_long (e : Endian) (m : PRSMessage)
    (h : 53 < (utf8GetBytes m.serviceName).length) : m.getBytes e = none := by
  have hc : copyTo (utf8GetBytes m.serviceName)
      ((List.replicate msgSize 0).set 0 (toByte m.msgType.toInt)) 1 = none := by
    apply if_neg
    simp only [List.length_set, List.length_replicate, msgSize]
    omega
  simp only [getBytes, hc, Option.bind_eq_bind, Option.bind_none]

/-- A name of up to 53 bytes is written, and what passes byte 50 is overwritten. -/
theorem getBytes_of_fits (e : Endian) (m : PRSMessage)
    (h : (utf8GetBytes m.serviceName).length ≤ 53) : m.getBytes e = some (m.wire
      ((utf8GetBytes m.serviceName ++
        List.replicate (53 - (utf8GetBytes m.serviceName).length) 0).take 50)) := by
  generalize hB : utf8GetBytes m.serviceName = B at h ⊢
  generalize hW : B ++ List.replicate (53 - B.length) 0 = W
  have hlen : W.length = 53 := by
    rw [← hW, List.length_append, List.length_replicate]
    omega
  have first : copyTo B ((List.replicate msgSize 0).set 0 (toByte m.msgType.toInt)) 1 =
      some (toByte m.msgType.toInt :: W) := by
    rw [copyTo, if_pos (by simp only [List.length_set, List.length_replicate, msgSize]; omega),
      Nat.add_comm, ← hW]
    change some ([_] ++ B ++ (List.replicate 53 0).drop B.length) = _
    rw [List.drop_replicate]
    rfl
  obtain ⟨x, hx⟩ := List.length_eq_one_iff.mp (show (W.drop 52).length = 1 by
    rw [List.length_drop, hlen])
  have second (p q : UInt8) : copyTo [p, q] (toByte m.msgType.toInt :: W) 51 =
      some (toByte m.msgType.toInt :: W.take 50 ++ [p, q] ++ [x]) := by
    rw [copyTo, if_pos (by simp only [List.length_cons, List.length_nil, hlen]; omega), ← hx]
    rfl
  have last := set_last_byte (toByte m.msgType.toInt) (UInt8.ofNat (m.port.toNat / 256))
    (UInt8.ofNat (m.port.toNat % 256)) x (toByte m.status.toInt) (W.take 50)
    (by rw [List.length_take, hlen]; rfl)
  simp only [getBytes, hB, first, ByteOrder.network_bytes, second, Option.bind_eq_bind,
    Option.bind_some, last, Option.pure_def, wire]

theorem getBytes_eq_none_iff (e : Endian) (m : PRSMessage) :
    m.getBytes e = none ↔ 53 < (utf8GetBytes m.serviceName).length := by
  refine ⟨fun h => ?_, getBytes_of_long e m⟩
  by_contra hn
  rw [getBytes_of_fits e m (by omega)] at h
  cases h

/-- A name that fits its field is written whole and padded with NUL. -/
theorem getBytes_of_name (e : Endian) (m : PRSMessage)
    (h : (utf8GetBytes m.serviceName).length ≤ 50) : m.getBytes e = some (m.wire
      (utf8GetBytes m.serviceName ++
        List.replicate (50 - (utf8GetBytes m.serviceName).length) 0)) := by
  rw [getBytes_of_fits e m (by omega), List.take_append, List.take_of_length_le h,
    List.take_replicate]
  congr 4
  omega

theorem wire_length (m : PRSMessage) {name : List UInt8} (h : name.length = 50) :
    (m.wire name).length = msgSize := by
  simp [wire, h, msgSize]

theorem ofBytes_wire (e : Endian) (m : PRSMessage) {name : List UInt8} (h : name.length = 50) :
    ofBytes e ⟨m.wire name, m.wire_length h⟩ = {
      msgType := .ofInt (toByte m.msgType.toInt).toNat
      serviceName := trimEnd 0 (utf8GetString name)
      port := m.port
      status := .ofInt (toByte m.status.toInt).toNat } := by
  have hname : ((m.wire name).drop 1).take 50 = name := by
    simp [wire, ← h]
  have h51 : (m.wire name).getD 51 0 = UInt8.ofNat (m.port.toNat / 256) := by
    simp [wire, List.getD_eq_getElem?_getD, h]
  have h52 : (m.wire name).getD 52 0 = UInt8.ofNat (m.port.toNat % 256) := by
    simp [wire, List.getD_eq_getElem?_getD, h]
  have h53 : (m.wire name).getD 53 0 = toByte m.status.toInt := by
    simp [wire, List.getD_eq_getElem?_getD, h]
  simp only [ofBytes, hname, h51, h52, h53, ByteOrder.read_written]
  rfl

theorem toByte_toNat {n : ℤ} (h : 0 ≤ n ∧ n < 256) : ((toByte n).toNat : ℤ) = n := by
  simp only [toByte, UInt8.toNat_ofNat']
  omega

theorem toByte_ofNat (b : UInt8) : toByte (b.toNat : ℤ) = b := by
  have hb : b.toNat < 256 := b.toNat_lt
  have hn : ((b.toNat : ℤ) % 256).toNat = b.toNat := by omega
  rw [toByte, hn, UInt8.ofNat_toNat]

theorem trimEnd_zeros (s : Str) (k : ℕ) (h : s.getLast? ≠ some 0) :
    trimEnd 0 (s ++ List.replicate k 0) = s := by
  induction k with
  | zero =>
    rw [List.replicate_zero, List.append_nil]
    refine List.rdropWhile_eq_self_iff.mpr fun hl hz => h ?_
    rw [List.getLast?_eq_some_getLast hl]
    exact congrArg some (beq_iff_eq.mp hz)
  | succ k ih =>
    rw [List.replicate_succ', ← List.append_assoc, trimEnd, List.rdropWhile_concat_pos _ _ _ (by rfl)]
    exact ih

theorem encode_zeros (k : ℕ) : Utf16.encode (List.replicate k '\x00') = List.replicate k 0 := by
  induction k with
  | zero => rfl
  | succ k ih =>
    rw [List.replicate_succ, List.replicate_succ, ← ih]
    rfl

theorem utf8_zeros (k : ℕ) : Utf8.encode (List.replicate k '\x00') = List.replicate k 0 := by
  induction k with
  | zero => rfl
  | succ k ih =>
    rw [List.replicate_succ, List.replicate_succ, ← ih]
    rfl

/-- Text is a part that does not end in NUL, then NULs. -/
theorem split_zeros (cs : List Char) :
    ∃ ds k, cs = ds ++ List.replicate k '\x00' ∧ ds.getLast? ≠ some '\x00' := by
  refine ⟨cs.rdropWhile (· == '\x00'), (cs.rtakeWhile (· == '\x00')).length, ?_, ?_⟩
  · have hz : cs.rtakeWhile (· == '\x00') =
        List.replicate (cs.rtakeWhile (· == '\x00')).length '\x00' :=
      List.eq_replicate_iff.mpr ⟨rfl, fun c hc => by simpa using List.mem_rtakeWhile_imp hc⟩
    rw [← hz, List.rdropWhile_append_rtakeWhile]
  · intro h
    have hne : cs.rdropWhile (· == '\x00') ≠ [] := by
      intro hnil
      rw [hnil] at h
      cases h
    rw [List.getLast?_eq_some_getLast hne, Option.some.injEq] at h
    exact List.rdropWhile_last_not _ _ hne (beq_iff_eq.mpr h)

theorem encodeChar_last {c : Char} (h : c ≠ '\x00') : (Utf16.encodeChar c).getLast? ≠ some 0 := by
  have hc := Utf16.char_range c
  by_cases hs : c.toNat < 0x10000
  · rw [Utf16.encodeChar_small hs, List.getLast?_singleton, ne_eq, Option.some.injEq]
    intro h0
    have hn := congrArg UInt16.toNat h0
    rw [Utf16.toNat_ofNat_of_lt hs] at hn
    exact h (Char.toNat_inj.mp hn)
  · rw [Utf16.encodeChar_large hs, List.getLast?_cons_cons, List.getLast?_singleton, ne_eq,
      Option.some.injEq]
    intro h0
    have hn := congrArg UInt16.toNat h0
    rw [Utf16.toNat_ofNat_of_lt (by omega)] at hn
    change 0xDC00 + (c.toNat - 0x10000) % 0x400 = 0 at hn
    omega

theorem encode_last {cs : List Char} (h : cs.getLast? ≠ some '\x00') :
    (Utf16.encode cs).getLast? ≠ some 0 := by
  rcases List.eq_nil_or_concat cs with rfl | ⟨ds, c, rfl⟩
  · exact fun h0 => nomatch h0
  · have hc : c ≠ '\x00' := by
      rintro rfl
      exact h (by simp)
    have hne : Utf16.encodeChar c ≠ [] := by
      unfold Utf16.encodeChar
      split_ifs <;> simp
    rw [List.concat_eq_append, Utf16.encode_append, show Utf16.encode [c] = Utf16.encodeChar c by
      simp [Utf16.encode], List.getLast?_append_of_ne_nil _ hne]
    exact encodeChar_last hc

theorem utf8GetBytes_encode (cs : List Char) : utf8GetBytes (Utf16.encode cs) = Utf8.encode cs := by
  rw [utf8GetBytes, Utf16.decode_encode]

theorem utf8GetString_encode (cs : List Char) :
    utf8GetString (Utf8.encode cs) = Utf16.encode cs := by
  rw [utf8GetString, Utf8.decode_encode]

theorem utf8GetString_getBytes {s : Str} (h : Utf16.WellFormed s) :
    utf8GetString (utf8GetBytes s) = s := by
  obtain ⟨cs, rfl⟩ := h
  rw [utf8GetBytes_encode, utf8GetString_encode]

/-- What follows well-formed text is decoded on its own. -/
theorem utf8GetString_getBytes_append {s : Str} (h : Utf16.WellFormed s) (bytes : List UInt8) :
    utf8GetString (utf8GetBytes s ++ bytes) = s ++ utf8GetString bytes := by
  obtain ⟨cs, rfl⟩ := h
  rw [utf8GetBytes_encode, utf8GetString, Utf8.decode_encode_append, Utf16.encode_append]
  rfl

/-- Decoding the field of an encoded name gives the name back. -/
theorem name_padded (cs : List Char) (k : ℕ) (h : (Utf16.encode cs).getLast? ≠ some 0) :
    trimEnd 0 (utf8GetString (Utf8.encode cs ++ List.replicate k 0)) = Utf16.encode cs := by
  rw [← utf8_zeros, ← Utf8.encode_append, utf8GetString_encode, Utf16.encode_append, encode_zeros,
    trimEnd_zeros _ _ h]

theorem ofBytes_getBytes (e e' : Endian) (m : PRSMessage) (cs : List Char)
    (ht : 0 ≤ m.msgType.toInt ∧ m.msgType.toInt < 256)
    (hs : 0 ≤ m.status.toInt ∧ m.status.toInt < 256) (hn : m.serviceName = Utf16.encode cs)
    (hlen : (Utf8.encode cs).length ≤ 50) (hlast : m.serviceName.getLast? ≠ some 0) :
    ∃ d : Datagram, m.getBytes e = some d.bytes ∧
      d.bytes[51]? = some (UInt8.ofNat (m.port.toNat / 256)) ∧
      d.bytes[52]? = some (UInt8.ofNat (m.port.toNat % 256)) ∧ ofBytes e' d = m := by
  have hb : utf8GetBytes m.serviceName = Utf8.encode cs := by rw [hn, utf8GetBytes_encode]
  have hfield : (Utf8.encode cs ++ List.replicate (50 - (Utf8.encode cs).length) 0).length = 50 := by
    rw [List.length_append, List.length_replicate]
    omega
  refine ⟨⟨m.wire _, m.wire_length hfield⟩, ?_, ?_, ?_, ?_⟩
  · rw [getBytes_of_name e m (by rw [hb]; exact hlen), hb]
  · simp only [wire, List.getElem?_cons_succ]
    rw [List.getElem?_append_right (by omega), hfield]
    rfl
  · simp only [wire, List.getElem?_cons_succ]
    rw [List.getElem?_append_right (by omega), hfield]
    rfl
  · rw [ofBytes_wire e' m hfield, name_padded cs _ (hn ▸ hlast), toByte_toNat ht, toByte_toNat hs,
      MessageType.ofInt_toInt, Status.ofInt_toInt, ← hn]

/-- A datagram is its five fields. -/
theorem datagram_split (d : Datagram) : ∃ (t p q s : UInt8) (name : List UInt8),
    name.length = 50 ∧ d.bytes = t :: (name ++ [p, q, s]) := by
  obtain ⟨bytes, size⟩ := d
  cases bytes with
  | nil => cases size
  | cons t rest =>
    have hrest : rest.length = 53 := Nat.succ.inj size
    have hd : (rest.drop 50).length = 3 := by rw [List.length_drop, hrest]
    obtain ⟨p, q, s, hpqs⟩ := List.length_eq_three.mp hd
    refine ⟨t, p, q, s, rest.take 50, ?_, ?_⟩
    · rw [List.length_take, hrest]
      rfl
    · rw [← hpqs, List.take_append_drop]

theorem getBytes_ofBytes (e e' : Endian) (d : Datagram)
    (h : Utf8.WellFormed ((d.bytes.drop 1).take 50)) :
    (ofBytes e' d).getBytes e = some d.bytes := by
  obtain ⟨t, p, q, s, name, hlen, hd⟩ := datagram_split d
  have hname : (d.bytes.drop 1).take 50 = name := by simp [hd, ← hlen]
  obtain ⟨cs, hcs⟩ := hname ▸ h
  obtain ⟨ds, k, rfl, hds⟩ := split_zeros cs
  have hbytes : name = Utf8.encode ds ++ List.replicate k 0 := by
    rw [hcs, Utf8.encode_append, utf8_zeros]
  have hk : (Utf8.encode ds).length + k = 50 := by
    rw [← hlen, hbytes, List.length_append, List.length_replicate]
  have hservice : (ofBytes e' d).serviceName = Utf16.encode ds := by
    change trimEnd 0 (utf8GetString ((d.bytes.drop 1).take 50)) = _
    rw [hname, hbytes, name_padded ds k (encode_last hds)]
  have hb : utf8GetBytes (ofBytes e' d).serviceName = Utf8.encode ds := by
    rw [hservice, utf8GetBytes_encode]
  have hport : ByteOrder.getBytes e (ByteOrder.hostToNetworkOrder e
      (ofBytes e' d).port.toInt16).toUInt16 = [p, q] := by
    have h51 : d.bytes.getD 51 0 = p := by simp [hd, List.getD_eq_getElem?_getD, hlen]
    have h52 : d.bytes.getD 52 0 = q := by simp [hd, List.getD_eq_getElem?_getD, hlen]
    change ByteOrder.getBytes e (ByteOrder.hostToNetworkOrder e (ByteOrder.networkToHostOrder e'
      (ByteOrder.toInt16 e' (d.bytes.getD 51 0) (d.bytes.getD 52 0))).toUInt16.toInt16).toUInt16 = _
    rw [h51, h52, ByteOrder.written_read]
  rw [ByteOrder.network_bytes] at hport
  have htype : toByte (ofBytes e' d).msgType.toInt = t := by
    have h0 : d.bytes.getD 0 0 = t := by simp [hd]
    change toByte (MessageType.ofInt (d.bytes.getD 0 0).toNat).toInt = t
    rw [h0, MessageType.toInt_ofInt, toByte_ofNat]
  have hstatus : toByte (ofBytes e' d).status.toInt = s := by
    have h53 : d.bytes.getD 53 0 = s := by simp [hd, List.getD_eq_getElem?_getD, hlen]
    change toByte (Status.ofInt (d.bytes.getD 53 0).toNat).toInt = s
    rw [h53, Status.toInt_ofInt, toByte_ofNat]
  have hpad : 50 - (Utf8.encode ds).length = k := by omega
  rw [getBytes_of_name e _ (by rw [hb]; omega), hb, hpad, ← hbytes, wire, htype, hstatus, hd]
  obtain ⟨hp, hq⟩ := List.cons.inj hport
  rw [hp, List.cons.inj hq |>.1]

/-- On hosts of either byte order, messages that fit the format come back from
    their 54 bytes, and datagrams with a well-formed name field come back from
    the message they decode to. -/
theorem codec_inverse (e e' : Endian) :
    (∀ m : PRSMessage, (0 ≤ m.msgType.toInt ∧ m.msgType.toInt < 256) →
      (0 ≤ m.status.toInt ∧ m.status.toInt < 256) → Utf16.WellFormed m.serviceName →
      (utf8GetBytes m.serviceName).length ≤ 50 → m.serviceName.getLast? ≠ some 0 →
      ∃ d : Datagram, m.getBytes e = some d.bytes ∧
        d.bytes[51]? = some (UInt8.ofNat (m.port.toNat / 256)) ∧
        d.bytes[52]? = some (UInt8.ofNat (m.port.toNat % 256)) ∧ ofBytes e' d = m) ∧
    (∀ d : Datagram, Utf8.WellFormed ((d.bytes.drop 1).take 50) →
      (ofBytes e' d).getBytes e = some d.bytes) := by
  refine ⟨fun m ht hs hwf hlen hlast => ?_, getBytes_ofBytes e e'⟩
  obtain ⟨cs, hcs⟩ := hwf
  rw [hcs, utf8GetBytes_encode] at hlen
  exact ofBytes_getBytes e e' m cs ht hs hcs hlen hlast

theorem codec_inverse_request :
    (∃ d : Datagram, getBytes .little ⟨.requestPort, Utf16.lit "SVC1", 40000, .success⟩ =
        some d.bytes ∧ d.bytes[51]? = some 156 ∧ d.bytes[52]? = some 64 ∧
        ofBytes .big d = ⟨.requestPort, Utf16.lit "SVC1", 40000, .success⟩) ∧
    (ofBytes .big ⟨List.replicate 54 0, rfl⟩).getBytes .little = some (List.replicate 54 0) :=
  ⟨(codec_inverse .little .big).1 ⟨.requestPort, Utf16.lit "SVC1", 40000, .success⟩
      (by decide) (by decide) ⟨"SVC1".toList, rfl⟩ (by decide) (by decide),
    (codec_inverse .little .big).2 ⟨List.replicate 54 0, rfl⟩
      ⟨List.replicate 50 '\x00', by decide⟩⟩

end NetServices.PRSMessage
