/-!
UTF-8 text as lists of bytes. `encode` writes a list of characters; `decode` reads it back or names
the first sequence that no character has.
-/

set_option autoImplicit false

namespace ChatHub.Utf8

/-- The bytes of one character, one to four by the size of its code point. -/
def encodeChar (character : Char) : List UInt8 :=
  let point := character.toNat
  if point < 0x80 then
    [UInt8.ofNat point]
  else if point < 0x800 then
    [UInt8.ofNat (0xC0 + point / 0x40), UInt8.ofNat (0x80 + point % 0x40)]
  else if point < 0x10000 then
    [UInt8.ofNat (0xE0 + point / 0x1000), UInt8.ofNat (0x80 + point / 0x40 % 0x40),
      UInt8.ofNat (0x80 + point % 0x40)]
  else
    [UInt8.ofNat (0xF0 + point / 0x40000), UInt8.ofNat (0x80 + point / 0x1000 % 0x40),
      UInt8.ofNat (0x80 + point / 0x40 % 0x40), UInt8.ofNat (0x80 + point % 0x40)]

def encode (text : List Char) : List UInt8 :=
  text.flatMap encodeChar

def size (text : List Char) : Nat :=
  text.foldl (fun total character => total + character.utf8Size) 0

/-- The first place where a byte string stops being text. `validUpTo` bytes before it are good.
`length` counts the bytes that rule out a character; it is absent when the bytes end inside a
character that could still have been completed. -/
structure Fault where
  validUpTo : Nat
  length : Option Nat
  deriving DecidableEq, Repr

def Fault.message (fault : Fault) : String :=
  match fault.length with
  | some length => s!"invalid utf-8 sequence of {length} bytes from index {fault.validUpTo}"
  | none => s!"incomplete utf-8 byte sequence from index {fault.validUpTo}"

def isTail (byte : UInt8) : Bool :=
  0x80 ≤ byte && byte ≤ 0xBF

/-- A byte that may follow the first byte of a character of three or four bytes. The first and
last leads narrow the range, so that no character has two spellings, none is a surrogate and none
lies beyond the last plane. -/
def isSecond (lead byte : UInt8) : Bool :=
  if lead = 0xE0 then 0xA0 ≤ byte && byte ≤ 0xBF
  else if lead = 0xED then 0x80 ≤ byte && byte ≤ 0x9F
  else if lead = 0xF0 then 0x90 ≤ byte && byte ≤ 0xBF
  else if lead = 0xF4 then 0x80 ≤ byte && byte ≤ 0x8F
  else isTail byte

def tailBits (byte : UInt8) : Nat :=
  byte.toNat - 0x80

/-- Reads on from byte number `index`; `read` holds the characters before it, latest first. -/
def decodeFrom (index : Nat) (read : List Char) : List UInt8 → Except Fault (List Char)
  | [] => .ok read.reverse
  | first :: rest =>
    if first < 0x80 then
      decodeFrom (index + 1) (Char.ofNat first.toNat :: read) rest
    else if first < 0xC2 || 0xF4 < first then
      .error ⟨index, some 1⟩
    else if first < 0xE0 then
      match rest with
      | [] => .error ⟨index, none⟩
      | second :: rest =>
        if isTail second then
          decodeFrom (index + 2)
            (Char.ofNat ((first.toNat - 0xC0) * 0x40 + tailBits second) :: read) rest
        else .error ⟨index, some 1⟩
    else if first < 0xF0 then
      match rest with
      | [] => .error ⟨index, none⟩
      | second :: rest =>
        if isSecond first second then
          match rest with
          | [] => .error ⟨index, none⟩
          | third :: rest =>
            if isTail third then
              decodeFrom (index + 3)
                (Char.ofNat ((first.toNat - 0xE0) * 0x1000 + tailBits second * 0x40
                  + tailBits third) :: read) rest
            else .error ⟨index, some 2⟩
        else .error ⟨index, some 1⟩
    else
      match rest with
      | [] => .error ⟨index, none⟩
      | second :: rest =>
        if isSecond first second then
          match rest with
          | [] => .error ⟨index, none⟩
          | third :: rest =>
            if isTail third then
              match rest with
              | [] => .error ⟨index, none⟩
              | fourth :: rest =>
                if isTail fourth then
                  decodeFrom (index + 4)
                    (Char.ofNat ((first.toNat - 0xF0) * 0x40000 + tailBits second * 0x1000
                      + tailBits third * 0x40 + tailBits fourth) :: read) rest
                else .error ⟨index, some 3⟩
            else .error ⟨index, some 2⟩
        else .error ⟨index, some 1⟩

/-- The text that a byte string spells, or the first fault in it. -/
def decode (bytes : List UInt8) : Except Fault (List Char) :=
  decodeFrom 0 [] bytes

end ChatHub.Utf8
