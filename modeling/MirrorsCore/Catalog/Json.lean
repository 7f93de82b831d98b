import Mathlib

/-! JSON values and the library parser behind `Lean.Json.parse`. An input is the
byte offset already consumed and the characters left; object fields are kept in
key order, as the ordered map of the library lists them. -/

namespace MirrorsCore

structure JsonNumber where
  mantissa : Int
  exponent : Nat
  deriving DecidableEq

namespace JsonNumber

def fromInt (n : Int) : JsonNumber := ⟨n, 0⟩

def shiftl : JsonNumber → Nat → JsonNumber
  | ⟨m, e⟩, s => ⟨m * (10 ^ (s - e) : Nat), e - s⟩

def shiftr : JsonNumber → Nat → JsonNumber
  | ⟨m, e⟩, s => ⟨m, e + s⟩

end JsonNumber

inductive Json where
  | null
  | bool (value : Bool)
  | num (value : JsonNumber)
  | str (value : String)
  | arr (values : List Json)
  | obj (value : List (String × Json))

namespace Json

/-- Insertion into fields in key order; an equal key is replaced. -/
def insertField (key : String) (value : Json) : List (String × Json) → List (String × Json)
  | [] => [(key, value)]
  | field :: rest =>
      match compare key field.1 with
      | .lt => (key, value) :: field :: rest
      | .eq => (key, value) :: rest
      | .gt => field :: insertField key value rest

namespace Parser

structure Input where
  offset : Nat
  rest : List Char

/-- Failures carry the byte offset at which they occurred. -/
abbrev JsonParser := StateT Input (Except (Nat × String))

def fail {α : Type} (message : String) : JsonParser α := fun input =>
  .error (input.offset, message)

def any : JsonParser Char := fun input =>
  match input.rest with
  | [] => .error (input.offset, "unexpected end of input")
  | c :: rest => .ok (c, ⟨input.offset + c.utf8Size, rest⟩)

def peekChar : JsonParser Char := fun input =>
  match input.rest with
  | [] => .error (input.offset, "unexpected end of input")
  | c :: _ => .ok (c, input)

def isEof : JsonParser Bool := fun input => .ok (input.rest.isEmpty, input)

def eof : JsonParser Unit := fun input =>
  if input.rest.isEmpty then .ok ((), input)
  else .error (input.offset, "expected end of input")

def skip : JsonParser Unit := do
  let _ ← any

def wsGo (offset : Nat) : List Char → Input
  | [] => ⟨offset, []⟩
  | c :: rest =>
      if c = '\u0009' ∨ c = '\u000a' ∨ c = '\u000d' ∨ c = '\u0020' then
        wsGo (offset + c.utf8Size) rest
      else ⟨offset, c :: rest⟩

def ws : JsonParser Unit := fun input => .ok ((), wsGo input.offset input.rest)

def skipString (s : String) : JsonParser Unit := fun input =>
  if s.toList.isPrefixOf input.rest then
    .ok ((), ⟨input.offset + s.utf8ByteSize, input.rest.drop s.length⟩)
  else .error (input.offset, s!"expected: {s}")

/-- `attempt p <|> pure fallback`: a failure of `p` gives its input back. -/
def attemptOr {α : Type} (p : JsonParser α) (fallback : α) : JsonParser α := fun input =>
  match p input with
  | .ok result => .ok result
  | .error _ => .ok (fallback, input)

def hexChar : JsonParser UInt16 := do
  let c ← any
  if '0' ≤ c && c ≤ '9' then
    pure (c.val - '0'.val).toUInt16
  else if 'a' ≤ c && c ≤ 'f' then
    pure (c.val - 'a'.val + 10).toUInt16
  else if 'A' ≤ c && c ≤ 'F' then
    pure (c.val - 'A'.val + 10).toUInt16
  else
    fail "invalid hex character"

def finishSurrogatePair (low : UInt16) : JsonParser Char := do
  let c ← any
  if c != '\\' then fail ""
  let c ← any
  if c != 'u' then fail ""
  let c ← any
  if c != 'd' && c != 'D' then fail ""
  let u2 ← hexChar
  let u3 ← hexChar
  let u4 ← hexChar
  let val := (u2 <<< 8) ||| (u3 <<< 4) ||| u4
  if val < 0xC00 then fail ""
  let charVal := (((low.toUInt32 &&& 0x3FF) <<< 10) ||| (val.toUInt32 &&& 0x3FF)) + 0x10000
  if h : charVal.isValidChar then
    return ⟨charVal, h⟩
  else
    fail ""

def escapedChar : JsonParser Char := do
  let c ← any
  match c with
  | '\\' => return '\\'
  | '"' => return '"'
  | '/' => return '/'
  | 'b' => return '\x08'
  | 'f' => return '\x0c'
  | 'n' => return '\n'
  | 'r' => return '\x0d'
  | 't' => return '\t'
  | 'u' =>
    let u1 ← hexChar
    let u2 ← hexChar
    let u3 ← hexChar
    let u4 ← hexChar
    let val := (u1 <<< 12) ||| (u2 <<< 8) ||| (u3 <<< 4) ||| u4
    if h : val < 0xD800 then
      return ⟨val.toUInt32, Or.inl h⟩
    else if h' : val < 0xE000 then
      if val < 0xDC00 then
        attemptOr (finishSurrogatePair val) (Char.ofNat 0xFFFD)
      else
        return Char.ofNat 0xFFFD
    else
      return ⟨val.toUInt32, Or.inr ⟨Nat.not_lt.mp h', Nat.lt_trans val.toFin.isLt (by decide)⟩⟩
  | _ => fail "illegal \\u escape"

/-- The body of a string literal; every turn takes a character, so a budget of
one more than the characters left is never used up. -/
def strCore : Nat → String → JsonParser String
  | 0, _ => fail "string budget exhausted"
  | budget + 1, acc => do
      let c ← peekChar
      if c == '"' then
        skip
        return acc
      else
        let c ← any
        if c == '\\' then
          let escaped ← escapedChar
          strCore budget (acc.push escaped)
        else if 0x0020 ≤ c.val && c.val ≤ 0x10ffff then
          strCore budget (acc.push c)
        else
          fail "unexpected character in string"

def str : JsonParser String := fun input => strCore (input.rest.length + 1) "" input

def natCoreGo (acc digits offset : Nat) : List Char → (Nat × Nat) × Input
  | [] => ((acc, digits), ⟨offset, []⟩)
  | c :: rest =>
      if '0' ≤ c && c ≤ '9' then
        natCoreGo (10 * acc + (c.val - '0'.val).toNat) (digits + 1) (offset + c.utf8Size) rest
      else ((acc, digits), ⟨offset, c :: rest⟩)

def natCoreNumDigits : JsonParser (Nat × Nat) := fun input =>
  .ok (natCoreGo 0 0 input.offset input.rest)

def natCore : JsonParser Nat := do
  let (n, _) ← natCoreNumDigits
  return n

def lookahead (p : Char → Bool) (desc : String) : JsonParser Unit := do
  let c ← peekChar
  if p c then return ()
  else fail ("expected " ++ desc)

def natNonZero : JsonParser Nat := do
  lookahead (fun c => '1' ≤ c && c ≤ '9') "1-9"
  natCore

def natNumDigits : JsonParser (Nat × Nat) := do
  lookahead (fun c => '0' ≤ c && c ≤ '9') "digit"
  natCoreNumDigits

def natMaybeZero : JsonParser Nat := do
  lookahead (fun c => '0' ≤ c && c ≤ '9') "0-9"
  natCore

def numSign : JsonParser Int := do
  let c ← peekChar
  if c == '-' then
    skip
    return (-1 : Int)
  else
    return 1

def nat : JsonParser Nat := do
  let c ← peekChar
  if c == '0' then
    skip
    return 0
  else
    natNonZero

def numWithDecimals : JsonParser JsonNumber := do
  let sign ← numSign
  let whole ← nat
  if ← isEof then
    return JsonNumber.fromInt (sign * whole)
  else
    let c ← peekChar
    if c == '.' then
      skip
      let (n, d) ← natNumDigits
      if d > USize.size then fail "too many decimals"
      return JsonNumber.mk (sign * (whole * (10 ^ d : Nat) + n)) d
    else
      return JsonNumber.fromInt (sign * whole)

def exponent (value : JsonNumber) : JsonParser JsonNumber := do
  if ← isEof then
    return value
  else
    let c ← peekChar
    if c == 'e' || c == 'E' then
      skip
      let c ← peekChar
      if c == '-' then
        skip
        let n ← natMaybeZero
        return value.shiftr n
      else
        if c == '+' then skip
        let n ← natMaybeZero
        if n > USize.size then fail "exp too large"
        return value.shiftl n
    else
      return value

def num : JsonParser JsonNumber := do
  let res ← numWithDecimals
  exponent res

/- `anyCore` opens a nested value only after a bracket, and the element and
member loops move on only after a delimiter, so two units a character and two
more to start with are never used up. -/
mutual

def arrayCore : Nat → List Json → JsonParser (List Json)
  | 0, _ => fail "value budget exhausted"
  | budget + 1, acc => do
      let hd ← anyCore budget
      let acc' := acc ++ [hd]
      let c ← any
      if c == ']' then
        ws
        return acc'
      else if c == ',' then
        ws
        arrayCore budget acc'
      else
        fail "unexpected character in array"

def objectCore : Nat → List (String × Json) → JsonParser (List (String × Json))
  | 0, _ => fail "value budget exhausted"
  | budget + 1, kvs => do
      lookahead (fun c => c == '"') "\""
      skip
      let k ← str
      ws
      lookahead (fun c => c == ':') ":"
      skip
      ws
      let v ← anyCore budget
      let c ← any
      if c == '\x7d' then
        ws
        return insertField k v kvs
      else if c == ',' then
        ws
        objectCore budget (insertField k v kvs)
      else
        fail "unexpected character in object"

def anyCore : Nat → JsonParser Json
  | 0 => fail "value budget exhausted"
  | budget + 1 => do
      let c ← peekChar
      if c == '[' then
        skip
        ws
        let c ← peekChar
        if c == ']' then
          skip
          ws
          return Json.arr []
        else
          let a ← arrayCore budget []
          return Json.arr a
      else if c == '\x7b' then
        skip
        ws
        let c ← peekChar
        if c == '\x7d' then
          skip
          ws
          return Json.obj []
        else
          let kvs ← objectCore budget []
          return Json.obj kvs
      else if c == '"' then
        skip
        let s ← str
        ws
        return Json.str s
      else if c == 'f' then
        skipString "false"
        ws
        return Json.bool false
      else if c == 't' then
        skipString "true"
        ws
        return Json.bool true
      else if c == 'n' then
        skipString "null"
        ws
        return Json.null
      else if c == '-' || ('0' ≤ c && c ≤ '9') then
        let n ← num
        ws
        return Json.num n
      else
        fail "unexpected input"

end

def anyValue : JsonParser Json := fun input => (do
  ws
  let res ← anyCore (2 * input.rest.length + 2)
  eof
  return res : JsonParser Json) input

end Parser

def parse (s : String) : Except String Json :=
  match Parser.anyValue ⟨0, s.toList⟩ with
  | .ok (json, _) => .ok json
  | .error (offset, message) => .error s!"offset {offset}: {message}"

end Json
end MirrorsCore
