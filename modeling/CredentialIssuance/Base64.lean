namespace CredentialIssuance.Base64

-- The character of a group of six bits.
def digit (n : Nat) : Char :=
  if n < 26 then Char.ofNat (n + 65)
  else if n < 52 then Char.ofNat (n + 71)
  else if n < 62 then Char.ofNat (n - 4)
  else if n = 62 then '+'
  else '/'

-- The six bits a character stands for. The padding character stands for none.
def value? (c : Char) : Option Nat :=
  if 'A' ≤ c ∧ c ≤ 'Z' then some (c.toNat - 65)
  else if 'a' ≤ c ∧ c ≤ 'z' then some (c.toNat - 71)
  else if '0' ≤ c ∧ c ≤ '9' then some (c.toNat + 4)
  else if c = '+' then some 62
  else if c = '/' then some 63
  else none

theorem value?_digit : ∀ n < 64, value? (digit n) = some n := by decide

-- Three bytes make four digits. A shorter last group is filled up with zero bits and its
-- missing digits are written as padding.
def encode : List UInt8 → List Char
  | a :: b :: c :: rest =>
    digit (a.toNat / 4) :: digit (a.toNat % 4 * 16 + b.toNat / 16) ::
      digit (b.toNat % 16 * 4 + c.toNat / 64) :: digit (c.toNat % 64) :: encode rest
  | [a, b] =>
    [digit (a.toNat / 4), digit (a.toNat % 4 * 16 + b.toNat / 16), digit (b.toNat % 16 * 4), '=']
  | [a] => [digit (a.toNat / 4), digit (a.toNat % 4 * 16), '=', '=']
  | [] => []

-- The bytes of a last group whose fourth character is padding. The filled-up bits must be zero.
def padded? (a b c : Char) : Option (List UInt8) := do
  let x ← value? a
  let y ← value? b
  if c = '=' then
    if y % 16 = 0 then some [UInt8.ofNat (x * 4 + y / 16)] else none
  else
    let z ← value? c
    if z % 4 = 0 then
      some [UInt8.ofNat (x * 4 + y / 16), UInt8.ofNat (y % 16 * 16 + z / 4)]
    else none

-- The bytes of a group of four digits.
def full? (a b c d : Char) : Option (List UInt8) := do
  let x ← value? a
  let y ← value? b
  let z ← value? c
  let w ← value? d
  some [UInt8.ofNat (x * 4 + y / 16), UInt8.ofNat (y % 16 * 16 + z / 4),
    UInt8.ofNat (z % 4 * 64 + w)]

-- Every byte sequence has exactly one written form, and only that is read. Padding is read in the
-- last group only.
def decode? : List Char → Option (List UInt8)
  | [] => some []
  | [a, b, c, d] => if d = '=' then padded? a b c else full? a b c d
  | a :: b :: c :: d :: rest => do
    let group ← full? a b c d
    let bytes ← decode? rest
    some (group ++ bytes)
  | _ => none

-- The written form of a text: that of its UTF-8 bytes.
def ofText (text : String) : String :=
  String.ofList (encode text.toUTF8.data.toList)

end CredentialIssuance.Base64
