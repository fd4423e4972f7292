import ContractAbi.Text.Utf8

/-!
# Percent encoding

Text as part of a web address: characters that may not stand there are written as the hex of their
bytes.
-/

namespace ContractAbi.Percent

def ofByte (b : UInt8) : List Char :=
  '%' :: (Hex.ofByte b).map Char.toUpper

def ofChar (c : Char) : List Char :=
  (String.singleton c).toUTF8.toList.flatMap ofByte

/-- Characters that never need encoding. -/
def isUnreserved (c : Char) : Bool :=
  c.isAlphanum || ['-', '.', '_', '~'].contains c

/-- A name or value of a query; a space is written as a plus sign. -/
def encodeField (s : String) : String :=
  String.ofList <| (Text.characters s).flatMap fun c =>
    if isUnreserved c then [c] else if c = ' ' then ['+'] else ofChar c

/-- A part of an address in which the characters that satisfy `kept` stand for themselves. -/
def encode (kept : Char → Bool) (s : String) : String :=
  String.ofList <| (Text.characters s).flatMap fun c => if kept c then [c] else ofChar c

/-- Printable ASCII characters but the space. -/
def isVisible (c : Char) : Bool :=
  32 < c.toNat && c.toNat < 127

end ContractAbi.Percent
