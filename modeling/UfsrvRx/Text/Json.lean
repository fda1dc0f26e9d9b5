import UfsrvRx.Text.Decimal

namespace UfsrvRx
namespace Text

/-!
# JSON

A decoder for the documents of RFC 8259.  A string is decoded to bytes: those from 0x80 on are
taken as they are, and `\uXXXX` stands for the UTF-8 bytes of its code unit.  A number is
decoded to a mantissa and a power of ten.  The fuel of the decoder is more than the length of
the text, of which every step takes a byte.
-/

inductive Json
  | null
  | boolean (value : Bool)
  | number (mantissa exponent : Int)
  | string (bytes : List Byte)
  | array (elements : List Json)
  | object (members : List (List Byte × Json))

namespace Json

/-! ## Tokens -/

def isSpace (byte : Byte) : Bool :=
  byte == 32 || byte == 9 || byte == 10 || byte == 13

def skipSpace (text : List Byte) : List Byte :=
  text.dropWhile isSpace

/-- The rest after a word. -/
def expect : List Byte -> List Byte -> Option (List Byte)
  | [], text => some text
  | _ :: _, [] => none
  | byte :: word, other :: text => if byte = other then expect word text else none

def hexValue (byte : Byte) : Option Nat :=
  if isDigit byte then some (digitValue byte)
  else if 97 ≤ byte.toNat ∧ byte.toNat ≤ 102 then some (byte.toNat - 87)
  else if 65 ≤ byte.toNat ∧ byte.toNat ≤ 70 then some (byte.toNat - 55)
  else none

def utf8 (code : Nat) : List Byte :=
  if code < 0x80 then [code.toUInt8]
  else if code < 0x800 then [(0xC0 + code / 64).toUInt8, (0x80 + code % 64).toUInt8]
  else
    [(0xE0 + code / 4096).toUInt8, (0x80 + code / 64 % 64).toUInt8, (0x80 + code % 64).toUInt8]

/-- The byte that a short escape stands for. -/
def escaped (byte : Byte) : Option Byte :=
  if byte = 34 ∨ byte = 92 ∨ byte = 47 then some byte
  else if byte = 98 then some 8
  else if byte = 102 then some 12
  else if byte = 110 then some 10
  else if byte = 114 then some 13
  else if byte = 116 then some 9
  else none

/-- Where the reader of a string stands: between characters, after a backslash, or in the four
digits of a code unit. -/
inductive Position
  | between
  | escape
  | unicode (left : Nat) (code : Nat)

/-- The bytes of a string after its opening quote, and what follows the closing one. -/
def stringBody : Position -> List Byte -> Option (List Byte × List Byte)
  | _, [] => none
  | .between, byte :: text =>
      if byte = 34 then some ([], text)
      else if byte = 92 then stringBody .escape text
      else if byte < 32 then none
      else (stringBody .between text).map fun read => (byte :: read.1, read.2)
  | .escape, byte :: text =>
      if byte = 117 then stringBody (.unicode 3 0) text
      else
        (escaped byte).bind fun value =>
          (stringBody .between text).map fun read => (value :: read.1, read.2)
  | .unicode left code, byte :: text =>
      (hexValue byte).bind fun digit =>
        match left with
        | 0 =>
            (stringBody .between text).map fun read =>
              (utf8 (code * 16 + digit) ++ read.1, read.2)
        | left + 1 => stringBody (.unicode left (code * 16 + digit)) text

/-! ## Numbers -/

/-- Digits, without a zero before other digits. -/
def wholePart (text : List Byte) : Option (List Byte × List Byte) :=
  match text.span isDigit with
  | ([], _) => none
  | (first :: others, rest) =>
      if first = 48 ∧ others ≠ [] then none else some (first :: others, rest)

def fractionPart : List Byte -> Option (List Byte × List Byte)
  | [] => some ([], [])
  | byte :: text =>
      if byte = 46 then
        match text.span isDigit with
        | ([], _) => none
        | (digits, rest) => some (digits, rest)
      else some ([], byte :: text)

def signedDigits (isNegative : Bool) (text : List Byte) : Option (Int × List Byte) :=
  match text.span isDigit with
  | ([], _) => none
  | (digits, rest) =>
      some (if isNegative then -(valueOf digits : Int) else valueOf digits, rest)

def exponentPart : List Byte -> Option (Int × List Byte)
  | [] => some (0, [])
  | byte :: text =>
      if byte = 101 ∨ byte = 69 then
        match text with
        | 45 :: text => signedDigits true text
        | 43 :: text => signedDigits false text
        | text => signedDigits false text
      else some (0, byte :: text)

def magnitude (isNegative : Bool) (text : List Byte) : Option (Json × List Byte) :=
  (wholePart text).bind fun whole =>
    (fractionPart whole.2).bind fun fraction =>
      (exponentPart fraction.2).map fun exponent =>
        let mantissa : Int := valueOf (whole.1 ++ fraction.1)
        (.number (if isNegative then -mantissa else mantissa)
          (exponent.1 - fraction.1.length), exponent.2)

/-! ## Values -/

mutual

def value : Nat -> List Byte -> Option (Json × List Byte)
  | 0, _ => none
  | fuel + 1, text =>
      match skipSpace text with
      | [] => none
      | byte :: text =>
          if byte = 34 then (stringBody .between text).map fun read => (.string read.1, read.2)
          else if byte = 91 then
            match skipSpace text with
            | 93 :: text => some (.array [], text)
            | _ => (elements fuel text).map fun read => (.array read.1, read.2)
          else if byte = 123 then
            match skipSpace text with
            | 125 :: text => some (.object [], text)
            | _ => (members fuel text).map fun read => (.object read.1, read.2)
          else if byte = 116 then
            (expect (ascii "rue") text).map fun text => (.boolean true, text)
          else if byte = 102 then
            (expect (ascii "alse") text).map fun text => (.boolean false, text)
          else if byte = 110 then (expect (ascii "ull") text).map fun text => (.null, text)
          else if byte = 45 then magnitude true text
          else magnitude false (byte :: text)

def elements : Nat -> List Byte -> Option (List Json × List Byte)
  | 0, _ => none
  | fuel + 1, text =>
      (value fuel text).bind fun first =>
        match skipSpace first.2 with
        | 44 :: text => (elements fuel text).map fun read => (first.1 :: read.1, read.2)
        | 93 :: text => some ([first.1], text)
        | _ => none

def members : Nat -> List Byte -> Option (List (List Byte × Json) × List Byte)
  | 0, _ => none
  | fuel + 1, text =>
      match skipSpace text with
      | 34 :: text =>
          (stringBody .between text).bind fun key =>
            match skipSpace key.2 with
            | 58 :: text =>
                (value fuel text).bind fun first =>
                  match skipSpace first.2 with
                  | 44 :: text =>
                      (members fuel text).map fun read => ((key.1, first.1) :: read.1, read.2)
                  | 125 :: text => some ([(key.1, first.1)], text)
                  | _ => none
            | _ => none
      | _ => none

end

/-- One value and nothing else. -/
def decode (text : List Byte) : Option Json :=
  (value (text.length + 1) text).bind fun read =>
    if skipSpace read.2 = [] then some read.1 else none

/-- The first member of that name. -/
def member (key : List Byte) : Json -> Option Json
  | object members => members.lookup key
  | _ => none

end Json

end Text
end UfsrvRx
