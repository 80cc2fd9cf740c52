/-!
Socket addresses: an internet address of either version, a port, and for version six a numeric
scope. The text of an address is canonical; reading accepts every spelling of it.
-/

set_option autoImplicit false

namespace ChatHub

structure Ipv4 where
  first : UInt8
  second : UInt8
  third : UInt8
  fourth : UInt8
  deriving DecidableEq, Repr, Inhabited

structure Ipv6 where
  groups : List UInt16
  eight : groups.length = 8
  deriving DecidableEq, Repr

inductive SocketAddress where
  | v4 (address : Ipv4) (port : UInt16)
  | v6 (address : Ipv6) (scope : UInt32) (port : UInt16)
  deriving DecidableEq, Repr

/-- The version four address that a version six address stands for. -/
def Ipv6.mapped? (address : Ipv6) : Option Ipv4 :=
  match address.groups with
  | [0, 0, 0, 0, 0, 0xffff, high, low] =>
    some ⟨(high >>> 8).toUInt8, high.toUInt8, (low >>> 8).toUInt8, low.toUInt8⟩
  | _ => none

namespace Address

/-! ### Text -/

def ipv4Text (address : Ipv4) : String :=
  ".".intercalate ([address.first, address.second, address.third, address.fourth].map
    fun octet => toString octet.toNat)

def groupsText (groups : List UInt16) : String :=
  ":".intercalate (groups.map fun group => String.ofList (Nat.toDigits 16 group.toNat))

/-- The longest run of zero groups, as a start and a length, the first of several. `start` and
`length` describe the run that ends before the remaining groups. -/
def longestRun (start length : Nat) (best : Nat × Nat) : List UInt16 → Nat × Nat
  | [] => if best.2 < length then (start, length) else best
  | group :: rest =>
    let best := if best.2 < length then (start, length) else best
    if group = 0 then longestRun start (length + 1) best rest
    else longestRun (start + length + 1) 0 best rest

/-- The text of a version six address. The longest run of at least two zero groups is left out,
and an address that stands for one of version four keeps that one's notation. -/
def ipv6Text (address : Ipv6) : String :=
  match address.mapped? with
  | some mapped => "::ffff:" ++ ipv4Text mapped
  | none =>
    let groups := address.groups
    let (start, length) := longestRun 0 0 (0, 0) groups
    if length < 2 then groupsText groups
    else groupsText (groups.take start) ++ "::" ++ groupsText (groups.drop (start + length))

/-! ### Reading -/

def digit? (base : Nat) (character : Char) : Option Nat :=
  let value :=
    if character.isDigit then character.toNat - '0'.toNat
    else if 'a' ≤ character ∧ character ≤ 'f' then character.toNat - 'a'.toNat + 10
    else if 'A' ≤ character ∧ character ≤ 'F' then character.toNat - 'A'.toNat + 10
    else base
  if value < base then some value else none

def valueOf (base : Nat) (digits : List Char) : Nat :=
  digits.foldl (fun value digit => base * value + (digit? base digit).getD 0) 0

structure NumberForm where
  base : Nat
  /-- The most digits it may have; leading zeros count. -/
  width : Option Nat
  leadingZeros : Bool
  /-- The greatest value. -/
  limit : Nat

/-- Takes all digits from the front of a text. They have to form one number. -/
def number? (form : NumberForm) (text : List Char) : Option (Nat × List Char) :=
  let digits := text.takeWhile fun character => (digit? form.base character).isSome
  let value := valueOf form.base digits
  if digits.isEmpty then none
  else if form.width.any (· < digits.length) then none
  else if !form.leadingZeros && digits.head? == some '0' && 1 < digits.length then none
  else if form.limit < value then none
  else some (value, text.drop digits.length)

def expect? (character : Char) : List Char → Option (List Char)
  | first :: rest => if first = character then some rest else none
  | [] => none

def octetForm : NumberForm :=
  { base := 10, width := some 3, leadingZeros := false, limit := 255 }

def groupForm : NumberForm :=
  { base := 16, width := some 4, leadingZeros := true, limit := 65535 }

def portForm : NumberForm :=
  { base := 10, width := none, leadingZeros := true, limit := 65535 }

def scopeForm : NumberForm :=
  { base := 10, width := none, leadingZeros := true, limit := Nat.pow 2 32 - 1 }

def ipv4? (text : List Char) : Option (Ipv4 × List Char) := do
  let (first, text) ← number? octetForm text
  let text ← expect? '.' text
  let (second, text) ← number? octetForm text
  let text ← expect? '.' text
  let (third, text) ← number? octetForm text
  let text ← expect? '.' text
  let (fourth, text) ← number? octetForm text
  some (⟨first.toUInt8, second.toUInt8, third.toUInt8, fourth.toUInt8⟩, text)

/-- A number in base sixteen behind `0x`, in base eight behind `0`, and else in base ten. -/
def anyNumber? (text : List Char) : Option Nat :=
  let (base, digits) :=
    match text with
    | '0' :: 'x' :: digits | '0' :: 'X' :: digits => (16, digits)
    | '0' :: digits => (8, '0' :: digits)
    | digits => (10, digits)
  if !digits.isEmpty && digits.all fun character => (digit? base character).isSome then
    some (valueOf base digits)
  else none

/-- Reads a version four address in up to four numbers of any base. The last number stands for all
octets that are left. -/
def looseIpv4? (text : List Char) : Option Ipv4 := do
  let numbers ← (text.splitOn '.').mapM anyNumber?
  let last ← numbers.getLast?
  let front := numbers.dropLast
  guard (front.length < 4 && front.all (· < 256) && last < Nat.pow 256 (4 - front.length))
  let value := front.foldl (fun value octet => 256 * value + octet) 0
  let value := value * Nat.pow 256 (4 - front.length) + last
  let octet (place : Nat) : UInt8 := (value / Nat.pow 256 place).toUInt8
  some ⟨octet 3, octet 2, octet 1, octet 0⟩

def groupsOfIpv4 (address : Ipv4) : List UInt16 :=
  [address.first.toUInt16 * 256 + address.second.toUInt16,
    address.third.toUInt16 * 256 + address.fourth.toUInt16]

/-- Takes groups from the front of a text, at most `room`, with colons between them. A version four
address may stand for the last two, and then no more can follow. -/
def takeGroups : Nat → Bool → List Char → List UInt16 × Bool × List Char
  | 0, _, text => ([], false, text)
  | room + 1, first, text =>
    match if first then some text else expect? ':' text with
    | none => ([], false, text)
    | some body =>
      match if 0 < room then ipv4? body else none with
      | some (address, rest) => (groupsOfIpv4 address, true, rest)
      | none =>
        match number? groupForm body with
        | none => ([], false, text)
        | some (group, rest) =>
          let (groups, embedded, rest) := takeGroups room false rest
          (group.toUInt16 :: groups, embedded, rest)

/-- Groups in front of and behind a double colon, which stands for at least one zero group. -/
def joinGroups (front back : List UInt16) : List UInt16 :=
  front ++ List.replicate (8 - front.length - back.length) 0 ++ back

def ipv6? (text : List Char) : Option (Ipv6 × List Char) :=
  let (front, embedded, rest) := takeGroups 8 true text
  if eight : front.length = 8 then some (⟨front, eight⟩, rest)
  else if embedded then none
  else
    match rest with
    | ':' :: ':' :: rest =>
      let (back, _, rest) := takeGroups (7 - front.length) true rest
      let groups := joinGroups front back
      if eight : groups.length = 8 then some (⟨groups, eight⟩, rest) else none
    | _ => none

def port? (text : List Char) : Option UInt16 := do
  let text ← expect? ':' text
  match ← number? portForm text with
  | (port, []) => some port.toUInt16
  | _ => none

/-- A percent sign and a number; without them the scope is zero. -/
def scope (text : List Char) : UInt32 × List Char :=
  match (expect? '%' text).bind (number? scopeForm) with
  | some (value, rest) => (value.toUInt32, rest)
  | none => (0, text)

end Address

namespace SocketAddress

def text : SocketAddress → String
  | .v4 address port => Address.ipv4Text address ++ ":" ++ toString port.toNat
  | .v6 address scope port =>
    "[" ++ Address.ipv6Text address
      ++ (if scope = 0 then "" else "%" ++ toString scope.toNat)
      ++ "]:" ++ toString port.toNat

def ofChars? (text : List Char) : Option SocketAddress :=
  match text with
  | '[' :: text => do
    let (address, text) ← Address.ipv6? text
    let (scope, text) := Address.scope text
    let text ← Address.expect? ']' text
    let port ← Address.port? text
    some (.v6 address scope port)
  | text => do
    let (address, text) ← Address.ipv4? text
    let port ← Address.port? text
    some (.v4 address port)

def ofString? (text : String) : Option SocketAddress :=
  ofChars? text.toList

def withPort : SocketAddress → UInt16 → SocketAddress
  | .v4 address _, port => .v4 address port
  | .v6 address scope _, port => .v6 address scope port

end SocketAddress

end ChatHub
