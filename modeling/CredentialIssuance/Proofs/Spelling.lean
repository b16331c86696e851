import CredentialIssuance.Proofs.Encoding
import Mathlib.Algebra.Group.Nat.Defs

namespace CredentialIssuance

namespace Base64

-- The characters of the digits from 0 to 63.
def alphabet : List Char :=
  "ABCDEFGHIJKLMNOPQRSTUVWXYZabcdefghijklmnopqrstuvwxyz0123456789+/".toList

-- The lowest bits of a number, the highest of them first.
def bits : Nat → Nat → List Bool
  | 0, _ => []
  | width + 1, n => bits width (n / 2) ++ [decide (n % 2 = 1)]

-- The symbols stand for groups of six bits, which are the bits of the bytes and as many zeros as
-- the last group lacks. Padding completes the last four characters.
inductive Spells (bytes : List UInt8) : List Char → Prop
  | intro (groups : List Nat) (symbols : List Char) (zeros padding : Nat)
      (known : groups.map (fun n => alphabet[n]?) = symbols.map some)
      (same : groups.flatMap (bits 6) =
        bytes.flatMap (fun b => bits 8 b.toNat) ++ List.replicate zeros false)
      (short : zeros < 6) (complete : (groups.length + padding) % 4 = 0) (least : padding < 4) :
      Spells bytes (symbols ++ List.replicate padding '=')

theorem alphabet_digit : ∀ n < 64, alphabet[n]? = some (digit n) := by decide

theorem lt_of_alphabet {n : Nat} {c : Char} (h : alphabet[n]? = some c) : n < 64 :=
  (List.getElem?_eq_some_iff.1 h).1

-- Bits.

theorem length_bits (width n : Nat) : (bits width n).length = width := by
  induction width generalizing n with
  | zero => rfl
  | succ width ih => simp [bits, ih]

theorem bits_zero (width : Nat) : bits width 0 = List.replicate width false := by
  induction width with
  | zero => rfl
  | succ width ih => simp [bits, ih, List.replicate_succ']

-- The bits of a number fall into those of a higher and those of a lower part.
theorem bits_add (high low n : Nat) :
    bits (high + low) n = bits high (n / 2 ^ low) ++ bits low (n % 2 ^ low) := by
  induction low generalizing n with
  | zero => simp [bits]
  | succ low ih =>
    have hhigh : n / 2 / 2 ^ low = n / 2 ^ (low + 1) := by
      rw [Nat.div_div_eq_div_mul, Nat.pow_succ']
    have hlow : n / 2 % 2 ^ low = n % 2 ^ (low + 1) / 2 := by
      rw [Nat.pow_succ', Nat.mod_mul_right_div_self]
    have hlast : n % 2 ^ (low + 1) % 2 = n % 2 := Nat.mod_mod_of_dvd n ⟨2 ^ low, Nat.pow_succ'⟩
    rw [← Nat.add_assoc, bits, bits, ih, hhigh, hlow, hlast, List.append_assoc]

theorem bits_inj {width m n : Nat} (hm : m < 2 ^ width) (hn : n < 2 ^ width)
    (h : bits width m = bits width n) : m = n := by
  induction width generalizing m n with
  | zero => omega
  | succ width ih =>
    obtain ⟨hinit, hlast⟩ := List.append_inj' h rfl
    have hhalf : m / 2 = n / 2 := ih (by omega) (by omega) hinit
    have hparity : m % 2 = 1 ↔ n % 2 = 1 := by simpa using hlast
    omega

-- Numbers of the same width are read off their bits.
theorem flatMap_bits_inj {width : Nat} (hwidth : 0 < width) {groups groups' : List Nat}
    (hgroups : ∀ n ∈ groups, n < 2 ^ width) (hgroups' : ∀ n ∈ groups', n < 2 ^ width)
    (h : groups.flatMap (bits width) = groups'.flatMap (bits width)) : groups = groups' := by
  have hcount : groups.length = groups'.length := by
    have hlength := congrArg List.length h
    simp only [List.length_flatMap, length_bits, List.map_const', List.sum_replicate_nat]
      at hlength
    exact Nat.eq_of_mul_eq_mul_right hwidth hlength
  induction groups generalizing groups' with
  | nil => exact (List.length_eq_zero_iff.1 hcount.symm).symm
  | cons m rest ih =>
    cases groups' with
    | nil => cases hcount
    | cons n rest' =>
      rw [List.forall_mem_cons] at hgroups hgroups'
      obtain ⟨hfirst, hrest⟩ := List.append_inj h (by rw [length_bits, length_bits])
      rw [bits_inj hgroups.1 hgroups'.1 hfirst,
        ih hgroups.2 hgroups'.2 hrest (Nat.succ.inj hcount)]

-- What is written spells the bytes. The bits of three bytes are those of four digits.

section Written

variable (a b c : UInt8)

theorem bits_group :
    bits 6 (a.toNat / 4) ++ (bits 6 (a.toNat % 4 * 16 + b.toNat / 16) ++
      (bits 6 (b.toNat % 16 * 4 + c.toNat / 64) ++ bits 6 (c.toNat % 64))) =
    bits 8 a.toNat ++ (bits 8 b.toNat ++ bits 8 c.toNat) := by
  have hb : b.toNat < 256 := b.toNat_lt
  have hc : c.toNat < 256 := c.toNat_lt
  rw [bits_add 6 2 a.toNat, bits_add 4 4 b.toNat, bits_add 2 6 c.toNat,
    bits_add 2 4 (a.toNat % 4 * 16 + b.toNat / 16), bits_add 4 2 (b.toNat % 16 * 4 + c.toNat / 64)]
  rw [show (a.toNat % 4 * 16 + b.toNat / 16) / 2 ^ 4 = a.toNat % 2 ^ 2 by omega,
    show (a.toNat % 4 * 16 + b.toNat / 16) % 2 ^ 4 = b.toNat / 2 ^ 4 by omega,
    show (b.toNat % 16 * 4 + c.toNat / 64) / 2 ^ 2 = b.toNat % 2 ^ 4 by omega,
    show (b.toNat % 16 * 4 + c.toNat / 64) % 2 ^ 2 = c.toNat / 2 ^ 6 by omega,
    show a.toNat / 4 = a.toNat / 2 ^ 2 by omega, show c.toNat % 64 = c.toNat % 2 ^ 6 by omega]
  simp only [List.append_assoc]

theorem bits_two :
    bits 6 (a.toNat / 4) ++ (bits 6 (a.toNat % 4 * 16 + b.toNat / 16) ++ bits 6 (b.toNat % 16 * 4)) =
    bits 8 a.toNat ++ (bits 8 b.toNat ++ List.replicate 2 false) := by
  have hb : b.toNat < 256 := b.toNat_lt
  rw [bits_add 6 2 a.toNat, bits_add 4 4 b.toNat,
    bits_add 2 4 (a.toNat % 4 * 16 + b.toNat / 16), bits_add 4 2 (b.toNat % 16 * 4)]
  rw [show (a.toNat % 4 * 16 + b.toNat / 16) / 2 ^ 4 = a.toNat % 2 ^ 2 by omega,
    show (a.toNat % 4 * 16 + b.toNat / 16) % 2 ^ 4 = b.toNat / 2 ^ 4 by omega,
    show b.toNat % 16 * 4 / 2 ^ 2 = b.toNat % 2 ^ 4 by omega,
    show b.toNat % 16 * 4 % 2 ^ 2 = 0 by omega, show a.toNat / 4 = a.toNat / 2 ^ 2 by omega,
    bits_zero]
  simp only [List.append_assoc]

theorem bits_one :
    bits 6 (a.toNat / 4) ++ bits 6 (a.toNat % 4 * 16) = bits 8 a.toNat ++ List.replicate 4 false := by
  rw [bits_add 6 2 a.toNat, bits_add 2 4 (a.toNat % 4 * 16)]
  rw [show a.toNat % 4 * 16 / 2 ^ 4 = a.toNat % 2 ^ 2 by omega,
    show a.toNat % 4 * 16 % 2 ^ 4 = 0 by omega, show a.toNat / 4 = a.toNat / 2 ^ 2 by omega,
    bits_zero]
  simp only [List.append_assoc]

variable {a b c}

theorem Spells.cons {bytes : List UInt8} {cs : List Char} (h : Spells bytes cs) :
    Spells (a :: b :: c :: bytes)
      (digit (a.toNat / 4) :: digit (a.toNat % 4 * 16 + b.toNat / 16) ::
        digit (b.toNat % 16 * 4 + c.toNat / 64) :: digit (c.toNat % 64) :: cs) := by
  have ha : a.toNat < 256 := a.toNat_lt
  have hb : b.toNat < 256 := b.toNat_lt
  have hc : c.toNat < 256 := c.toNat_lt
  obtain ⟨groups, symbols, zeros, padding, known, same, short, complete, least⟩ := h
  refine .intro (a.toNat / 4 :: (a.toNat % 4 * 16 + b.toNat / 16) ::
    (b.toNat % 16 * 4 + c.toNat / 64) :: c.toNat % 64 :: groups) (_ :: _ :: _ :: _ :: symbols)
    zeros padding ?_ ?_ short ?_ least
  · simp only [List.map_cons, known]
    rw [alphabet_digit _ (by omega), alphabet_digit _ (by omega), alphabet_digit _ (by omega),
      alphabet_digit _ (by omega)]
  · have hgroup := bits_group a b c
    simp only [List.flatMap_cons, same]
    simp only [← List.append_assoc] at hgroup ⊢
    rw [hgroup]
  · simp only [List.length_cons]
    omega

theorem spells_encode (bytes : List UInt8) : Spells bytes (encode bytes) := by
  fun_induction encode bytes with
  | case1 a b c rest ih => exact ih.cons
  | case2 a b =>
    have ha : a.toNat < 256 := a.toNat_lt
    have hb : b.toNat < 256 := b.toNat_lt
    refine .intro [a.toNat / 4, a.toNat % 4 * 16 + b.toNat / 16, b.toNat % 16 * 4] [_, _, _] 2 1
      ?_ ?_ (by decide) (by simp) (by decide)
    · simp only [List.map_cons, List.map_nil]
      rw [alphabet_digit _ (by omega), alphabet_digit _ (by omega), alphabet_digit _ (by omega)]
    · simpa only [List.flatMap_cons, List.flatMap_nil, List.append_nil, List.append_assoc]
        using bits_two a b
  | case3 a =>
    have ha : a.toNat < 256 := a.toNat_lt
    refine .intro [a.toNat / 4, a.toNat % 4 * 16] [_, _] 4 2 ?_ ?_ (by decide) (by simp) (by decide)
    · simp only [List.map_cons, List.map_nil]
      rw [alphabet_digit _ (by omega), alphabet_digit _ (by omega)]
    · simpa only [List.flatMap_cons, List.flatMap_nil, List.append_nil] using bits_one a
  | case4 => exact .intro [] [] 0 0 rfl rfl (by decide) (by simp) (by decide)

end Written

-- There is one form only: the number of bytes gives the numbers of groups, zeros and padding
-- characters, and the bits give the groups.
theorem Spells.unique {bytes : List UInt8} {cs cs' : List Char} (h : Spells bytes cs)
    (h' : Spells bytes cs') : cs = cs' := by
  obtain ⟨groups, symbols, zeros, padding, known, same, short, complete, least⟩ := h
  obtain ⟨groups', symbols', zeros', padding', known', same', short', complete', least'⟩ := h'
  have hlength := congrArg List.length same
  have hlength' := congrArg List.length same'
  simp only [List.length_append, List.length_flatMap, length_bits, List.map_const',
    List.sum_replicate_nat, List.length_replicate] at hlength hlength'
  have hzeros : zeros = zeros' := by omega
  have hcount : groups.length = groups'.length := by omega
  have hpadding : padding = padding' := by omega
  have bounded {groups : List Nat} {symbols : List Char}
      (known : groups.map (fun n => alphabet[n]?) = symbols.map some) : ∀ n ∈ groups, n < 2 ^ 6 := by
    intro n hn
    have hmem : alphabet[n]? ∈ symbols.map some := known ▸ List.mem_map_of_mem hn
    obtain ⟨c, -, hc⟩ := List.mem_map.1 hmem
    exact lt_of_alphabet hc.symm
  subst hzeros hpadding
  have hgroups : groups = groups' :=
    flatMap_bits_inj (by decide) (bounded known) (bounded known') (same.trans same'.symm)
  subst hgroups
  have hsymbols : symbols = symbols' :=
    (List.map_inj_right fun _ _ => Option.some.inj).1 (known.symm.trans known')
  rw [hsymbols]

theorem spells_iff {bytes : List UInt8} {cs : List Char} : Spells bytes cs ↔ encode bytes = cs := by
  constructor
  · intro h
    exact (spells_encode bytes).unique h
  · rintro rfl
    exact spells_encode bytes

theorem spells_toList_iff {bytes : List UInt8} {encoded : String} :
    Spells bytes encoded.toList ↔ String.ofList (encode bytes) = encoded := by
  rw [spells_iff, ← String.toList_inj, String.toList_ofList]

end Base64

namespace Attachment

open Base64 (Spells encode spells_iff spells_toList_iff)

-- What is refused is no padded form at all, or it is the padded form of bytes that no text has.
theorem decode_eq_error_iff {encoded : String} {x : Error} :
    decode encoded = .error x ↔
      (x = .invalidMessage .notBase64 ∧ ∀ bytes, ¬ Spells bytes encoded.toList) ∨
      (x = .invalidMessage .notUtf8 ∧ ∃ bytes, Spells bytes encoded.toList ∧
        ∀ text : String, text.toUTF8.data.toList ≠ bytes) := by
  simp only [spells_toList_iff]
  constructor
  · intro h
    by_cases hbytes : ∃ bytes, String.ofList (encode bytes) = encoded
    · obtain ⟨bytes, rfl⟩ := hbytes
      by_cases htext : ∃ text : String, text.toUTF8.data.toList = bytes
      · obtain ⟨text, rfl⟩ := htext
        cases h.symm.trans (decode_ofText text)
      · have hforeign := not_exists.1 htext
        cases h.symm.trans (decode_not_utf8 hforeign)
        exact .inr ⟨rfl, bytes, rfl, hforeign⟩
    · have hnone := not_exists.1 hbytes
      cases h.symm.trans (decode_not_base64 hnone)
      exact .inl ⟨rfl, hnone⟩
  · rintro (⟨rfl, hnone⟩ | ⟨rfl, bytes, rfl, hforeign⟩)
    · exact decode_not_base64 hnone
    · exact decode_not_utf8 hforeign

-- Bytes are written in their padded form. The texts that are read are the padded forms of the UTF-8
-- bytes of texts, each read as the text that it is the form of. Writing undoes reading, so no two
-- of them are read alike. All else is refused, the padded form of bytes that are not UTF-8
-- included.
theorem decode_canonical :
    (∀ bytes cs, encode bytes = cs ↔ Spells bytes cs) ∧
    (∀ text : String, decode (Base64.ofText text) = .ok text) ∧
    (∀ bytes : List UInt8, (∀ text : String, text.toUTF8.data.toList ≠ bytes) →
      decode (String.ofList (encode bytes)) = .error (.invalidMessage .notUtf8)) ∧
    (∀ encoded text, decode encoded = .ok text → Base64.ofText text = encoded) ∧
    (∀ encoded text, decode encoded = .ok text ↔
      Spells text.toUTF8.data.toList encoded.toList) ∧
    (∀ encoded encoded' text, decode encoded = .ok text → decode encoded' = .ok text →
      encoded = encoded') ∧
    ∀ encoded x, decode encoded = .error x ↔
      (x = .invalidMessage .notBase64 ∧ ∀ bytes, ¬ Spells bytes encoded.toList) ∨
      (x = .invalidMessage .notUtf8 ∧ ∃ bytes, Spells bytes encoded.toList ∧
        ∀ text : String, text.toUTF8.data.toList ≠ bytes) := by
  refine ⟨fun bytes cs => spells_iff.symm, decode_ofText, fun bytes foreign => decode_not_utf8 foreign,
    fun encoded text h => decode_eq_ok_iff.1 h, fun encoded text => ?spelled,
    fun encoded encoded' text h h' => ?alike, fun encoded x => decode_eq_error_iff⟩
  case spelled => exact decode_eq_ok_iff.trans spells_toList_iff.symm
  case alike => exact (decode_eq_ok_iff.1 h).symm.trans (decode_eq_ok_iff.1 h')

-- The form of a character that is cut off, that of a whole one, and that one with an unused bit
-- set.
theorem decode_canonical_cut :
    (∀ text : String, text.toUTF8.data.toList ≠ [0xC3]) ∧
    decode "ww==" = .error (.invalidMessage .notUtf8) ∧ decode "w6k=" = .ok "é" ∧
    ¬ ∃ text, decode "w6l=" = .ok text := by
  have hcut : ∀ text : String, text.toUTF8.data.toList ≠ [0xC3] := by
    intro text h
    have hread := fromUTF8?_utf8 text
    rw [h] at hread
    cases hread
  obtain ⟨-, hwritten, hforeign, hform, -, -, -⟩ := decode_canonical
  refine ⟨hcut, hforeign _ hcut, hwritten "é", ?_⟩
  rintro ⟨text, htext⟩
  have hbytes : encode text.toUTF8.data.toList = "w6l=".toList := by
    rw [← String.toList_ofList (l := encode _)]
    exact congrArg String.toList (hform _ _ htext)
  have hread := Base64.decode?_encode text.toUTF8.data.toList
  rw [hbytes] at hread
  cases hread

end Attachment

end CredentialIssuance
