import MiniScheme.Text.Hidden

/-! Text in double quotes. The quote and the backslash are escaped by a backslash, four controls
have short names, and hidden characters are given by their code point. -/
namespace MiniScheme.Text

/-- A code point in lower-case hexadecimal, between braces. -/
def codePoint (c : Char) : List Char :=
  ['\\', 'u', '\x7b'] ++ Nat.toDigits 16 c.toNat ++ ['\x7d']

def escape (c : Char) : List Char :=
  match c with
  | '\x00' => ['\\', '0']
  | '\t' => ['\\', 't']
  | '\r' => ['\\', 'r']
  | '\n' => ['\\', 'n']
  | '"' => ['\\', '"']
  | '\\' => ['\\', '\\']
  | _ => if isHidden c then codePoint c else [c]

def quoted (text : String) : String :=
  String.ofList ('"' :: text.toList.flatMap escape ++ ['"'])

end MiniScheme.Text
