/-!
Quoted text: in double quotes, with a backslash in front of quotes and backslashes, and escapes for
control characters. Every other character stands for itself, an apostrophe too; of the characters
that cannot be printed, only the control characters are known here.
-/

namespace ScriptHost.Quoted

/-- Whether a character is a control character: U+0000 to U+001F and U+007F to U+009F. -/
def isControl (c : Char) : Bool :=
  c.toNat < 0x20 || (0x7F ≤ c.toNat && c.toNat < 0xA0)

/-- A character inside quotes. Control characters without a letter of their own are written as
their hexadecimal code point in braces. -/
def escape (c : Char) : List Char :=
  if c = '"' then ['\\', '"']
  else if c = '\\' then ['\\', '\\']
  else if c = '\n' then ['\\', 'n']
  else if c = '\r' then ['\\', 'r']
  else if c = '\t' then ['\\', 't']
  else if c = '\x00' then ['\\', '0']
  else if isControl c then ['\\', 'u', '\x7b'] ++ Nat.toDigits 16 c.toNat ++ ['\x7d']
  else [c]

def quote (text : String) : String :=
  String.ofList ('"' :: text.toList.flatMap escape ++ ['"'])

end ScriptHost.Quoted
