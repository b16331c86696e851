import CredentialIssuance.Json.Document

namespace CredentialIssuance

-- A number as it is written.
structure Numeral where
  negative : Bool
  whole : List Char
  fraction : List Char
  -- The sign and the digits of the exponent.
  exponent : Option (Bool × List Char)
  deriving DecidableEq, Repr

namespace Numeral

def digitValue (c : Char) : Nat := c.toNat - 48

-- Takes digits into `total` while the result fits in 64 bits, and gives back the rest.
def absorb (total : Nat) : List Char → Nat × List Char
  | [] => (total, [])
  | c :: rest =>
    let next := total * 10 + digitValue c
    if next < Nat.pow 2 64 then absorb next rest else (total, c :: rest)

def natural (digits : List Char) : Nat :=
  digits.foldl (fun total c => total * 10 + digitValue c) 0

-- A numeral without fraction and exponent is an integer if 64 bits hold it, except that a
-- negative zero keeps its sign. Every other numeral is a floating-point number made from the
-- leading digits that fit in 64 bits.
def value? (n : Numeral) : Option Number :=
  let (digits, dropped) := absorb 0 n.whole
  let float (digits : Nat) (scale : Int) : Option Number :=
    (Magnitude.ofDecimal? digits scale).map fun m => .float ⟨n.negative, m⟩
  match n.fraction, n.exponent with
  | [], none =>
    if dropped ≠ [] then float digits dropped.length
    else if !n.negative then some (.int digits)
    else if digits = 0 ∨ Nat.pow 2 63 < digits then float digits 0
    else some (.int (-digits))
  | fraction, exponent =>
    let (digits, unused) := absorb digits fraction
    let shift : Int := (dropped.length : Int) - (fraction.length - unused.length : Nat)
    let scale : Int := match exponent with
      | none => 0
      | some (true, e) => -(natural e : Int)
      | some (false, e) => natural e
    float digits (shift + scale)

end Numeral

namespace Document

def blank (c : Char) : Bool := c = ' ' || c = '\n' || c = '\t' || c = '\r'

def skip (cs : List Char) : List Char := cs.dropWhile blank

-- One or more digits.
def digits? (cs : List Char) : Option (List Char × List Char) :=
  match cs.takeWhile Char.isDigit with
  | [] => none
  | ds => some (ds, cs.dropWhile Char.isDigit)

def fraction? : List Char → Option (List Char × List Char)
  | '.' :: cs => digits? cs
  | cs => some ([], cs)

def exponent? : List Char → Option (Option (Bool × List Char) × List Char)
  | c :: cs =>
    if c = 'e' ∨ c = 'E' then
      match cs with
      | '+' :: cs => (digits? cs).map fun (ds, rest) => (some (false, ds), rest)
      | '-' :: cs => (digits? cs).map fun (ds, rest) => (some (true, ds), rest)
      | cs => (digits? cs).map fun (ds, rest) => (some (false, ds), rest)
    else some (none, c :: cs)
  | [] => some (none, [])

-- A leading zero stands alone in front of the point.
def unsigned? (negative : Bool) (cs : List Char) : Option (Numeral × List Char) := do
  let (whole, cs) ← digits? cs
  if whole.head? = some '0' ∧ whole.length ≠ 1 then none
  else
    let (fraction, cs) ← fraction? cs
    let (exponent, cs) ← exponent? cs
    some (⟨negative, whole, fraction, exponent⟩, cs)

def numeral? : List Char → Option (Numeral × List Char)
  | '-' :: cs => unsigned? true cs
  | cs => unsigned? false cs

-- What a string is written with: a character, or a code unit of sixteen bits.
inductive Piece where
  | char (c : Char)
  | unit (n : Nat)
  deriving DecidableEq, Repr

def hexValue? (c : Char) : Option Nat :=
  if '0' ≤ c ∧ c ≤ '9' then some (c.toNat - 48)
  else if 'a' ≤ c ∧ c ≤ 'f' then some (c.toNat - 87)
  else if 'A' ≤ c ∧ c ≤ 'F' then some (c.toNat - 55)
  else none

def hexUnit? (a b c d : Char) : Option Nat := do
  let a ← hexValue? a
  let b ← hexValue? b
  let c ← hexValue? c
  let d ← hexValue? d
  some (((a * 16 + b) * 16 + c) * 16 + d)

-- The characters that a backslash and one letter stand for.
def escaped? : Char → Option Char
  | '"' => some '"'
  | '\\' => some '\\'
  | '/' => some '/'
  | 'b' => some '\x08'
  | 'f' => some '\x0c'
  | 'n' => some '\n'
  | 'r' => some '\r'
  | 't' => some '\t'
  | _ => none

-- The pieces up to the closing quote, which is taken too.
def pieces? : List Char → Option (List Piece × List Char)
  | '"' :: rest => some ([], rest)
  | '\\' :: 'u' :: a :: b :: c :: d :: rest => do
    let n ← hexUnit? a b c d
    let (ps, rest) ← pieces? rest
    some (.unit n :: ps, rest)
  | '\\' :: c :: rest => do
    let c ← escaped? c
    let (ps, rest) ← pieces? rest
    some (.char c :: ps, rest)
  | c :: rest =>
    if c.toNat < 0x20 then none
    else do
      let (ps, rest) ← pieces? rest
      some (.char c :: ps, rest)
  | [] => none

-- A code unit of the upper half of a pair takes the next one as its lower half; halves do not
-- stand alone.
def join? : List Piece → Option (List Char)
  | [] => some []
  | .char c :: rest => (join? rest).map (c :: ·)
  | .unit n :: rest =>
    if n < 0xd800 ∨ 0xdfff < n then (join? rest).map (Char.ofNat n :: ·)
    else
      match rest with
      | .unit m :: rest =>
        if n < 0xdc00 ∧ 0xdc00 ≤ m ∧ m ≤ 0xdfff then
          (join? rest).map (Char.ofNat (0x10000 + (n - 0xd800) * 0x400 + (m - 0xdc00)) :: ·)
        else none
      | _ => none

def string? (cs : List Char) : Option (Option String × List Char) :=
  (pieces? cs).map fun (ps, rest) => ((join? ps).map String.ofList, rest)

mutual
def value? : Nat → List Char → Option (Document × List Char)
  | 0, _ => none
  | fuel + 1, cs =>
    match skip cs with
    | 'n' :: 'u' :: 'l' :: 'l' :: rest => some (.null, rest)
    | 't' :: 'r' :: 'u' :: 'e' :: rest => some (.bool true, rest)
    | 'f' :: 'a' :: 'l' :: 's' :: 'e' :: rest => some (.bool false, rest)
    | '"' :: rest => (string? rest).map fun (s, rest) => (.str s, rest)
    | '[' :: rest =>
      match skip rest with
      | ']' :: rest => some (.arr [], rest)
      | rest => (items? fuel rest).map fun (items, rest) => (.arr items, rest)
    | '\x7b' :: rest =>
      match skip rest with
      | '\x7d' :: rest => some (.obj [], rest)
      | rest => (pairs? fuel rest).map fun (members, rest) => (.obj members, rest)
    | cs => (numeral? cs).map fun (n, rest) => (.num n.value?, rest)

-- One or more items and the closing bracket.
def items? : Nat → List Char → Option (List Document × List Char)
  | 0, _ => none
  | fuel + 1, cs => do
    let (item, rest) ← value? fuel cs
    match skip rest with
    | ',' :: rest => (items? fuel rest).map fun (items, rest) => (item :: items, rest)
    | ']' :: rest => some ([item], rest)
    | _ => none

-- One or more members and the closing brace.
def pairs? : Nat → List Char → Option (List (Option String × Document) × List Char)
  | 0, _ => none
  | fuel + 1, cs =>
    match skip cs with
    | '"' :: rest => do
      let (name, rest) ← string? rest
      match skip rest with
      | ':' :: rest => do
        let (value, rest) ← value? fuel rest
        match skip rest with
        | ',' :: rest =>
          (pairs? fuel rest).map fun (members, rest) => ((name, value) :: members, rest)
        | '\x7d' :: rest => some ([(name, value)], rest)
        | _ => none
      | _ => none
    | _ => none
end

-- Each array or object takes two units of fuel, and every other step reads a character for one.
def parse? (text : String) : Option Document := do
  let cs := text.toList
  let (document, rest) ← value? (2 * cs.length + 2) cs
  if skip rest = [] then some document else none

end Document

namespace Json

def maxDepth : Nat := 127

def parse? (text : String) : Option Json := do
  let document ← Document.parse? text
  if document.depth ≤ maxDepth then document.json? else none

end Json

end CredentialIssuance
