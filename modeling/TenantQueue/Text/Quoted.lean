import TenantQueue.Text.Printable

/-! Quoted texts, as diagnostics show them: a quotation mark, a backslash and the
common controls are escaped by a backslash, other hidden characters by number. -/
namespace TenantQueue.Text

private def hexDigits (value : Nat) : List Char := Nat.toDigits 16 value

def quotedChar (character : Char) : List Char :=
  if character = '"' then ['\\', '"']
  else if character = '\\' then ['\\', '\\']
  else if character = '\n' then ['\\', 'n']
  else if character = '\r' then ['\\', 'r']
  else if character = '\t' then ['\\', 't']
  else if character.toNat = 0 then ['\\', '0']
  else if isShown character then [character]
  else ['\\', 'u', '\x7b'] ++ hexDigits character.toNat ++ ['\x7d']

def quoted (text : String) : String :=
  String.ofList ('"' :: (text.toList.flatMap quotedChar ++ ['"']))

def bracketed (members : List String) : String :=
  "[" ++ ", ".intercalate members ++ "]"

def padRight (width : Nat) (text : String) : String :=
  text ++ String.ofList (List.replicate (width - text.length) ' ')

def padLeft (width : Nat) (text : String) : String :=
  String.ofList (List.replicate (width - text.length) ' ') ++ text

end TenantQueue.Text
