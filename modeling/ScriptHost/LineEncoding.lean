/-!
Text encodings for lines of a file. Every encoding writes a line followed by a newline.
-/

namespace ScriptHost

/-- The encodings a line can be written in. -/
inductive LineEncoding
  | ascii
  | utf16
  | utf8
deriving DecidableEq

namespace LineEncoding

def ofName? : String → Option LineEncoding
  | "ascii" => some .ascii
  | "unicode" => some .utf16
  | "utf8" => some .utf8
  | _ => none

/-- One byte per character; a character that is not ASCII becomes a question mark. -/
def asciiByte (c : Char) : UInt8 :=
  if c.toNat < 128 then UInt8.ofNat c.toNat else 63

/-- The UTF-16 units of a character: one, or a high and a low surrogate above U+FFFF. -/
def utf16Units (c : Char) : List Nat :=
  if c.toNat < 0x10000 then [c.toNat]
  else [0xD800 + (c.toNat - 0x10000) / 0x400, 0xDC00 + (c.toNat - 0x10000) % 0x400]

/-- The two bytes of a 16-bit unit, the low one first. -/
def littleEndian (unit : Nat) : List UInt8 :=
  [UInt8.ofNat (unit % 256), UInt8.ofNat (unit / 256)]

def encodeChar : LineEncoding → Char → List UInt8
  | .ascii, c => [asciiByte c]
  | .utf16, c => (utf16Units c).flatMap littleEndian
  | .utf8, c => String.utf8EncodeChar c

/-- The bytes of a line and the newline after it. There is no byte order mark. -/
def encodeLine (encoding : LineEncoding) (line : String) : List UInt8 :=
  (line.toList ++ ['\n']).flatMap encoding.encodeChar

end LineEncoding

/-- Bytes read as Latin-1, one character per byte. -/
def latin1Text (bytes : List UInt8) : String :=
  String.ofList (bytes.map fun b => Char.ofNat b.toNat)

end ScriptHost
