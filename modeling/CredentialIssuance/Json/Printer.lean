import CredentialIssuance.Json.Basic

namespace CredentialIssuance.Json

def hexDigit (n : Nat) : Char := if n < 10 then Char.ofNat (n + 48) else Char.ofNat (n + 87)

-- Characters are written as they are, except quotes, backslashes and control characters.
def escape (c : Char) : List Char :=
  if c = '"' then ['\\', '"']
  else if c = '\\' then ['\\', '\\']
  else if c = '\x08' then ['\\', 'b']
  else if c = '\t' then ['\\', 't']
  else if c = '\n' then ['\\', 'n']
  else if c = '\x0c' then ['\\', 'f']
  else if c = '\r' then ['\\', 'r']
  else if c.toNat < 0x20 then ['\\', 'u', '0', '0', hexDigit (c.toNat / 16), hexDigit (c.toNat % 16)]
  else [c]

def quoted (s : String) : List Char := '"' :: (s.toList.flatMap escape ++ ['"'])

def natChars (n : Nat) : List Char := Nat.toDigits 10 n

def numberChars : Number → List Char
  | .int (.ofNat n) => natChars n
  | .int (.negSucc n) => '-' :: natChars (n + 1)
  | .float x => x.text.toList

mutual
def chars : Json → List Char
  | .null => ['n', 'u', 'l', 'l']
  | .bool true => ['t', 'r', 'u', 'e']
  | .bool false => ['f', 'a', 'l', 's', 'e']
  | .num n => numberChars n
  | .str s => quoted s
  | .arr [] => ['[', ']']
  | .arr (item :: rest) => '[' :: (chars item ++ itemsChars rest)
  | .obj [] => ['\x7b', '\x7d']
  | .obj ((name, value) :: rest) => '\x7b' :: (quoted name ++ ':' :: (chars value ++ membersChars rest))

-- What follows the first item.
def itemsChars : List Json → List Char
  | [] => [']']
  | item :: rest => ',' :: (chars item ++ itemsChars rest)

-- What follows the first member.
def membersChars : List (String × Json) → List Char
  | [] => ['\x7d']
  | (name, value) :: rest => ',' :: (quoted name ++ ':' :: (chars value ++ membersChars rest))
end

def text (j : Json) : String := String.ofList (chars j)

end CredentialIssuance.Json
