import CredentialIssuance.Message.Attachment

namespace CredentialIssuance

namespace Base64

theorem digit_ne_padding : ∀ n < 64, digit n ≠ '=' := by decide

-- A byte is put together again from the digits it is spread over.

section Bytes

variable (a b c : UInt8)

theorem first_byte :
    UInt8.ofNat (a.toNat / 4 * 4 + (a.toNat % 4 * 16 + b.toNat / 16) / 16) = a := by
  have hb : b.toNat < 256 := b.toNat_lt
  rw [show a.toNat / 4 * 4 + (a.toNat % 4 * 16 + b.toNat / 16) / 16 = a.toNat by omega,
    UInt8.ofNat_toNat]

theorem second_byte :
    UInt8.ofNat ((a.toNat % 4 * 16 + b.toNat / 16) % 16 * 16 +
      (b.toNat % 16 * 4 + c.toNat / 64) / 4) = b := by
  have hb : b.toNat < 256 := b.toNat_lt
  have hc : c.toNat < 256 := c.toNat_lt
  rw [show (a.toNat % 4 * 16 + b.toNat / 16) % 16 * 16 + (b.toNat % 16 * 4 + c.toNat / 64) / 4 =
    b.toNat by omega, UInt8.ofNat_toNat]

theorem third_byte :
    UInt8.ofNat ((b.toNat % 16 * 4 + c.toNat / 64) % 4 * 64 + c.toNat % 64) = c := by
  have hc : c.toNat < 256 := c.toNat_lt
  rw [show (b.toNat % 16 * 4 + c.toNat / 64) % 4 * 64 + c.toNat % 64 = c.toNat by omega,
    UInt8.ofNat_toNat]

-- The digits of a group, each of six bits.

theorem value?_first : value? (digit (a.toNat / 4)) = some (a.toNat / 4) := by
  have ha : a.toNat < 256 := a.toNat_lt
  exact value?_digit _ (by omega)

theorem value?_second :
    value? (digit (a.toNat % 4 * 16 + b.toNat / 16)) = some (a.toNat % 4 * 16 + b.toNat / 16) := by
  have hb : b.toNat < 256 := b.toNat_lt
  exact value?_digit _ (by omega)

theorem value?_third :
    value? (digit (b.toNat % 16 * 4 + c.toNat / 64)) = some (b.toNat % 16 * 4 + c.toNat / 64) := by
  have hc : c.toNat < 256 := c.toNat_lt
  exact value?_digit _ (by omega)

theorem value?_fourth : value? (digit (c.toNat % 64)) = some (c.toNat % 64) :=
  value?_digit _ (Nat.mod_lt _ (by decide))

theorem full?_digits :
    full? (digit (a.toNat / 4)) (digit (a.toNat % 4 * 16 + b.toNat / 16))
      (digit (b.toNat % 16 * 4 + c.toNat / 64)) (digit (c.toNat % 64)) = some [a, b, c] := by
  simp only [full?, value?_first, value?_second, value?_third, value?_fourth, first_byte,
    second_byte, third_byte, Option.bind_eq_bind, Option.bind_some]

-- A last group of two bytes is one of three whose third byte is zero, and so on.

theorem padded?_two :
    padded? (digit (a.toNat / 4)) (digit (a.toNat % 4 * 16 + b.toNat / 16))
      (digit (b.toNat % 16 * 4)) = some [a, b] := by
  have hne : digit (b.toNat % 16 * 4) ≠ '=' := digit_ne_padding _ (by omega)
  have hthird : value? (digit (b.toNat % 16 * 4)) = some (b.toNat % 16 * 4) :=
    value?_third b 0
  have hsecond := second_byte a b 0
  simp only [UInt8.toNat_zero, Nat.zero_div, Nat.add_zero] at hsecond
  simp only [padded?, value?_first, value?_second, hthird, first_byte, hsecond, hne, if_false,
    Nat.mul_mod_left, if_true, Option.bind_eq_bind, Option.bind_some]

theorem padded?_one :
    padded? (digit (a.toNat / 4)) (digit (a.toNat % 4 * 16)) '=' = some [a] := by
  have hsecond : value? (digit (a.toNat % 4 * 16)) = some (a.toNat % 4 * 16) := value?_second a 0
  have hfirst := first_byte a 0
  simp only [UInt8.toNat_zero, Nat.zero_div, Nat.add_zero] at hfirst
  simp only [padded?, value?_first, hsecond, hfirst, Nat.mul_mod_left, if_true,
    Option.bind_eq_bind, Option.bind_some]

end Bytes

theorem decode?_cons {a b c d : Char} (hd : d ≠ '=') (rest : List Char) :
    decode? (a :: b :: c :: d :: rest) =
      (full? a b c d).bind fun group => (decode? rest).bind fun bytes => some (group ++ bytes) := by
  cases rest with
  | nil =>
    simp only [decode?, if_neg hd, Option.bind_some, List.append_nil, Option.bind_fun_some]
  | cons e rest => rfl

-- Reading what has been written gives the bytes back.
theorem decode?_encode (bytes : List UInt8) : decode? (encode bytes) = some bytes := by
  fun_induction encode bytes with
  | case1 a b c rest ih =>
    have hlast : digit (c.toNat % 64) ≠ '=' := digit_ne_padding _ (Nat.mod_lt _ (by decide))
    rw [decode?_cons hlast, full?_digits, ih]
    rfl
  | case2 a b => exact padded?_two a b
  | case3 a => exact padded?_one a
  | case4 => rfl

-- What is read is in the one form it could have been written in.

theorem digit_of_value? {c : Char} {n : Nat} (h : value? c = some n) : n < 64 ∧ digit n = c := by
  have hc := Char.ofNat_toNat c
  unfold value? at h
  split at h
  · next hupper =>
    have hrange : 65 ≤ c.toNat ∧ c.toNat ≤ 90 := hupper
    cases h
    refine ⟨by omega, ?_⟩
    rw [digit, if_pos (by omega), Nat.sub_add_cancel hrange.1, hc]
  split at h
  · next hlower =>
    have hrange : 97 ≤ c.toNat ∧ c.toNat ≤ 122 := hlower
    cases h
    refine ⟨by omega, ?_⟩
    rw [digit, if_neg (by omega), if_pos (by omega), Nat.sub_add_cancel (by omega), hc]
  split at h
  · next hnumber =>
    have hrange : 48 ≤ c.toNat ∧ c.toNat ≤ 57 := hnumber
    cases h
    refine ⟨by omega, ?_⟩
    rw [digit, if_neg (by omega), if_neg (by omega), if_pos (by omega), Nat.add_sub_cancel, hc]
  split at h
  · next hplus =>
    cases h
    exact ⟨by decide, hplus ▸ rfl⟩
  split at h
  · next hslash =>
    cases h
    exact ⟨by decide, hslash ▸ rfl⟩
  · cases h

theorem toNat_byte {n : Nat} (h : n < 256) : (UInt8.ofNat n).toNat = n := UInt8.toNat_ofNat_of_lt h

theorem encode_full? {a b c d : Char} {group : List UInt8} (h : full? a b c d = some group)
    (bytes : List UInt8) : encode (group ++ bytes) = a :: b :: c :: d :: encode bytes := by
  simp only [full?, Option.bind_eq_bind, Option.bind_eq_some_iff, Option.some.injEq] at h
  obtain ⟨x, hx, y, hy, z, hz, w, hw, rfl⟩ := h
  obtain ⟨hx, rfl⟩ := digit_of_value? hx
  obtain ⟨hy, rfl⟩ := digit_of_value? hy
  obtain ⟨hz, rfl⟩ := digit_of_value? hz
  obtain ⟨hw, rfl⟩ := digit_of_value? hw
  have hfirst := toNat_byte (show x * 4 + y / 16 < 256 by omega)
  have hsecond := toNat_byte (show y % 16 * 16 + z / 4 < 256 by omega)
  have hthird := toNat_byte (show z % 4 * 64 + w < 256 by omega)
  simp only [List.cons_append, List.nil_append, encode, hfirst, hsecond, hthird]
  rw [show (x * 4 + y / 16) / 4 = x by omega,
    show (x * 4 + y / 16) % 4 * 16 + (y % 16 * 16 + z / 4) / 16 = y by omega,
    show (y % 16 * 16 + z / 4) % 16 * 4 + (z % 4 * 64 + w) / 64 = z by omega,
    show (z % 4 * 64 + w) % 64 = w by omega]

theorem encode_padded? {a b c : Char} {group : List UInt8} (h : padded? a b c = some group) :
    encode group = [a, b, c, '='] := by
  simp only [padded?, Option.bind_eq_bind, Option.bind_eq_some_iff] at h
  obtain ⟨x, hx, y, hy, h⟩ := h
  obtain ⟨hx, rfl⟩ := digit_of_value? hx
  obtain ⟨hy, rfl⟩ := digit_of_value? hy
  have hfirst := toNat_byte (show x * 4 + y / 16 < 256 by omega)
  split at h
  · next hc =>
    subst hc
    obtain ⟨hzero, ⟨⟩⟩ := Option.ite_none_right_eq_some.1 h
    simp only [encode, hfirst]
    rw [show (x * 4 + y / 16) / 4 = x by omega, show (x * 4 + y / 16) % 4 * 16 = y by omega]
  · obtain ⟨z, hz, hlast⟩ := Option.bind_eq_some_iff.1 h
    obtain ⟨hzero, ⟨⟩⟩ := Option.ite_none_right_eq_some.1 hlast
    obtain ⟨hz, rfl⟩ := digit_of_value? hz
    have hsecond := toNat_byte (show y % 16 * 16 + z / 4 < 256 by omega)
    simp only [encode, hfirst, hsecond]
    rw [show (x * 4 + y / 16) / 4 = x by omega,
      show (x * 4 + y / 16) % 4 * 16 + (y % 16 * 16 + z / 4) / 16 = y by omega,
      show (y % 16 * 16 + z / 4) % 16 * 4 = z by omega]

theorem encode_decode? {cs : List Char} {bytes : List UInt8} (h : decode? cs = some bytes) :
    encode bytes = cs := by
  fun_induction decode? cs generalizing bytes with
  | case1 =>
    cases h
    rfl
  | case2 a b c => exact encode_padded? h
  | case3 a b c d hd =>
    have hgroup := encode_full? h []
    rwa [List.append_nil] at hgroup
  | case4 a b c d rest hrest ih =>
    simp only [Option.bind_eq_bind, Option.bind_eq_some_iff, Option.some.injEq] at h
    obtain ⟨group, hgroup, more, hmore, rfl⟩ := h
    rw [encode_full? hgroup, ih hmore]
  | case5 => cases h

end Base64

-- The bytes of a text determine it.

theorem utf8_of_fromUTF8? {bytes : List UInt8} {text : String}
    (h : String.fromUTF8? bytes.toByteArray = some text) : text.toUTF8.data.toList = bytes := by
  unfold String.fromUTF8? at h
  split at h
  · next hvalid =>
    cases h
    show bytes.toByteArray.data.toList = bytes
    simp
  · cases h

theorem fromUTF8?_utf8 (text : String) :
    String.fromUTF8? text.toUTF8.data.toList.toByteArray = some text := by
  have hbytes : text.toUTF8.data.toList.toByteArray = text.toUTF8 := by
    apply ByteArray.ext
    simp
  rw [hbytes]
  exact dif_pos text.isValidUTF8

namespace Attachment

theorem decode_ofText (text : String) : decode (Base64.ofText text) = .ok text := by
  simp only [decode, Base64.ofText, String.toList_ofList, Base64.decode?_encode,
    fromUTF8?_utf8]

-- An attachment that carries a text has it as its payload.
theorem payload_ofText (id text : String) : (ofText id text).payload = .ok text :=
  decode_ofText text

section Decode

variable {encoded text : String} {x : Error}

-- A text is read from its own base64 form and from nothing else.
theorem decode_eq_ok_iff : decode encoded = .ok text ↔ Base64.ofText text = encoded := by
  constructor
  · intro h
    unfold decode at h
    split at h
    · cases h
    · next bytes hbytes =>
      split at h
      · cases h
      · next hread =>
        cases h
        rw [Base64.ofText, utf8_of_fromUTF8? hread, Base64.encode_decode? hbytes,
          String.ofList_toList]
  · rintro rfl
    exact decode_ofText text

theorem decode_not_base64 (h : ∀ bytes, String.ofList (Base64.encode bytes) ≠ encoded) :
    decode encoded = .error (.invalidMessage .notBase64) := by
  cases hbytes : Base64.decode? encoded.toList with
  | none => simp only [decode, hbytes]
  | some bytes => exact absurd (by rw [Base64.encode_decode? hbytes, String.ofList_toList]) (h bytes)

theorem decode_not_utf8 {bytes : List UInt8} (h : ∀ text : String, text.toUTF8.data.toList ≠ bytes) :
    decode (String.ofList (Base64.encode bytes)) = .error (.invalidMessage .notUtf8) := by
  cases hread : String.fromUTF8? bytes.toByteArray with
  | none => simp only [decode, String.toList_ofList, Base64.decode?_encode, hread]
  | some text => exact absurd (utf8_of_fromUTF8? hread) (h text)

end Decode

end Attachment

end CredentialIssuance
