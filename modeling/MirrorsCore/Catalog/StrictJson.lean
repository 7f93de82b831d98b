import Mathlib
import MirrorsCore.Catalog.Json

/-! The strict JSON preflight (`Codec/StrictJson.lean`): byte limit, UTF-8, the
whole grammar, nesting depth and duplicate keys after escape decoding. Each
scan that the source leaves unbounded takes a budget from the characters left. -/

namespace MirrorsCore.StrictJson

inductive ErrorKind where
  | tooLarge
  | invalidUtf8
  | duplicateKey
  | invalidSyntax
  | tooDeep
  | leanParser
  deriving DecidableEq

structure Error where
  kind : ErrorKind
  offset : Nat
  message : String
  deriving DecidableEq

instance : ToString Error where
  toString e := s!"strict JSON error at offset {e.offset}: {e.message}"

structure Limits where
  maxBytes : Nat := 65535
  maxDepth : Nat := 128

/-- A position in the input, held as the characters at and after it. -/
structure Cursor where
  rest : List Char
  pos : Nat
  maxDepth : Nat

abbrev ScanResult (α : Type) := Except Error α

def Cursor.current (c : Cursor) : Option Char := c.rest.head?

def Cursor.advance (c : Cursor) : Cursor := { c with rest := c.rest.tail, pos := c.pos + 1 }

def Cursor.remaining (c : Cursor) : Nat := c.rest.length

def syntaxError {α : Type} (c : Cursor) (message : String) : ScanResult α :=
  .error (Error.mk .invalidSyntax c.pos message)

def isJsonWhitespace (c : Char) : Bool :=
  c == ' ' || c == '\t' || c == '\n' || c == '\r'

/-- Skip the characters that satisfy `p`, at most `budget` of them. -/
def skipWhileGo (p : Char → Bool) : Nat → Cursor → Cursor
  | 0, c => c
  | budget + 1, c =>
      match c.current with
      | some ch => if p ch then skipWhileGo p budget c.advance else c
      | none => c

def skipWhitespace (c : Cursor) : Cursor := skipWhileGo isJsonWhitespace c.remaining c

def expectChar (c : Cursor) (expected : Char) : ScanResult Cursor :=
  match c.current with
  | some actual =>
      if actual == expected then .ok c.advance
      else syntaxError c s!"expected '{expected}'"
  | none => syntaxError c s!"expected '{expected}', reached end of input"

def hexValue (c : Char) : Option Nat :=
  let n := c.toNat
  if '0'.toNat ≤ n && n ≤ '9'.toNat then some (n - '0'.toNat)
  else if 'a'.toNat ≤ n && n ≤ 'f'.toNat then some (10 + n - 'a'.toNat)
  else if 'A'.toNat ≤ n && n ≤ 'F'.toNat then some (10 + n - 'A'.toNat)
  else none

def takeHex (c : Cursor) : ScanResult (Nat × Cursor) :=
  match c.current with
  | some ch =>
      match hexValue ch with
      | some n => .ok (n, c.advance)
      | none => syntaxError c "expected a hexadecimal digit"
  | none => syntaxError c "incomplete Unicode escape"

def takeHex4 (c : Cursor) : ScanResult (Nat × Cursor) := do
  let (a, c) ← takeHex c
  let (b, c) ← takeHex c
  let (d, c) ← takeHex c
  let (e, c) ← takeHex c
  return (((a * 16 + b) * 16 + d) * 16 + e, c)

/-- The value of a one-character escape other than `\u`. -/
def simpleEscape? : Char → Option Nat
  | '"' => some '"'.toNat
  | '\\' => some '\\'.toNat
  | '/' => some '/'.toNat
  | 'b' => some 8
  | 'f' => some 12
  | 'n' => some 10
  | 'r' => some 13
  | 't' => some 9
  | _ => none

/-- The scalar of a `\u` escape whose `u` the cursor has passed: one code unit,
or a surrogate pair. `escaped` is where the `u` stood. -/
def scanUnicodeEscape (escaped c : Cursor) : ScanResult (Nat × Cursor) := do
  let (unit, afterUnit) ← takeHex4 c
  if 0xd800 ≤ unit && unit ≤ 0xdbff then
    let afterSlash ← expectChar afterUnit '\\'
    let afterU ← expectChar afterSlash 'u'
    let (low, afterLow) ← takeHex4 afterU
    if 0xdc00 ≤ low && low ≤ 0xdfff then
      return (0x10000 + (unit - 0xd800) * 0x400 + (low - 0xdc00), afterLow)
    else
      syntaxError afterU "high surrogate is not followed by a low surrogate"
  else if 0xdc00 ≤ unit && unit ≤ 0xdfff then
    syntaxError escaped "unpaired low surrogate"
  else
    return (unit, afterUnit)

def scanStringBody : Nat → Cursor → List Nat → ScanResult (List Nat × Cursor)
  | 0, c, _ => syntaxError c "unterminated string"
  | budget + 1, c, reversed =>
      match c.current with
      | none => syntaxError c "unterminated string"
      | some '"' => .ok (reversed.reverse, c.advance)
      | some '\\' =>
          let escaped := c.advance
          match escaped.current with
          | none => syntaxError escaped "unterminated escape"
          | some 'u' => do
              let (scalar, after) ← scanUnicodeEscape escaped escaped.advance
              scanStringBody budget after (scalar :: reversed)
          | some ch =>
              match simpleEscape? ch with
              | some scalar => scanStringBody budget escaped.advance (scalar :: reversed)
              | none => syntaxError escaped "invalid string escape"
      | some ch =>
          if ch.toNat < 0x20 then syntaxError c "unescaped control character in string"
          else scanStringBody budget c.advance (ch.toNat :: reversed)

def scanString (c : Cursor) : ScanResult (List Nat × Cursor) := do
  let body ← expectChar c '"'
  scanStringBody body.remaining body []

def isDigit (c : Char) : Bool := '0'.toNat ≤ c.toNat && c.toNat ≤ '9'.toNat

def isNonzeroDigit (c : Char) : Bool := '1'.toNat ≤ c.toNat && c.toNat ≤ '9'.toNat

def consumeDigits (c : Cursor) : Cursor := skipWhileGo isDigit c.remaining c

def requireDigit (c : Cursor) (message : String) : ScanResult Cursor :=
  match c.current with
  | some ch => if isDigit ch then .ok c else syntaxError c message
  | none => syntaxError c message

def scanInteger (c : Cursor) : ScanResult Cursor :=
  match c.current with
  | some '0' => .ok c.advance
  | some ch =>
      if isNonzeroDigit ch then .ok (consumeDigits c.advance)
      else syntaxError c "invalid number integer part"
  | none => syntaxError c "incomplete number"

def scanFraction (c : Cursor) : ScanResult Cursor :=
  match c.current with
  | some '.' => do
      let first ← requireDigit c.advance "fraction requires at least one digit"
      return consumeDigits first
  | _ => .ok c

def scanExponent (c : Cursor) : ScanResult Cursor :=
  match c.current with
  | some ch =>
      if ch == 'e' || ch == 'E' then do
        let exponent := c.advance
        let exponent := match exponent.current with
          | some sign => if sign == '+' || sign == '-' then exponent.advance else exponent
          | none => exponent
        let first ← requireDigit exponent "exponent requires at least one digit"
        return consumeDigits first
      else return c
  | _ => return c

def scanNumber (start : Cursor) : ScanResult Cursor := do
  let c := match start.current with
    | some '-' => start.advance
    | _ => start
  let c ← scanInteger c
  let c ← scanFraction c
  scanExponent c

def scanLiteral (c : Cursor) (literal : String) : ScanResult Cursor :=
  literal.toList.foldlM expectChar c

/-- The failure of a spent value budget, which `scanValue_budget` excludes. -/
def budgetError (c : Cursor) : ScanResult Cursor := syntaxError c "scan budget exhausted"

mutual

def scanValue : Nat → Cursor → Nat → ScanResult Cursor
  | 0, input, _ => budgetError input
  | budget + 1, input, depth =>
      let c := skipWhitespace input
      match c.current with
      | none => syntaxError c "expected a JSON value"
      | some '\x7b' =>
          if depth ≥ c.maxDepth then
            .error (Error.mk .tooDeep c.pos s!"JSON nesting exceeds limit {c.maxDepth}")
          else scanObject budget c.advance (depth + 1)
      | some '[' =>
          if depth ≥ c.maxDepth then
            .error (Error.mk .tooDeep c.pos s!"JSON nesting exceeds limit {c.maxDepth}")
          else scanArray budget c.advance (depth + 1)
      | some '"' => do
          let (_, after) ← scanString c
          return after
      | some 't' => scanLiteral c "true"
      | some 'f' => scanLiteral c "false"
      | some 'n' => scanLiteral c "null"
      | some '-' => scanNumber c
      | some ch =>
          if isDigit ch then scanNumber c
          else syntaxError c "unexpected character while reading a JSON value"

def scanObject : Nat → Cursor → Nat → ScanResult Cursor
  | 0, input, _ => budgetError input
  | budget + 1, input, depth =>
      let c := skipWhitespace input
      match c.current with
      | some '\x7d' => return c.advance
      | _ => scanMembers budget c depth []

def scanMembers : Nat → Cursor → Nat → List (List Nat) → ScanResult Cursor
  | 0, input, _, _ => budgetError input
  | budget + 1, input, depth, keys => do
      let keyStart := skipWhitespace input
      let (key, afterKey) ← scanString keyStart
      if keys.contains key then
        .error (Error.mk .duplicateKey keyStart.pos "duplicate object key")
      else
        let afterColon ← expectChar (skipWhitespace afterKey) ':'
        let afterValue ← scanValue budget afterColon depth
        let delimiter := skipWhitespace afterValue
        match delimiter.current with
        | some ',' => scanMembers budget delimiter.advance depth (key :: keys)
        | some '\x7d' => return delimiter.advance
        | some _ => syntaxError delimiter "expected ',' or '\x7d' after object member"
        | none => syntaxError delimiter "unterminated object"

def scanArray : Nat → Cursor → Nat → ScanResult Cursor
  | 0, input, _ => budgetError input
  | budget + 1, input, depth =>
      let c := skipWhitespace input
      match c.current with
      | some ']' => return c.advance
      | _ => scanElements budget c depth

def scanElements : Nat → Cursor → Nat → ScanResult Cursor
  | 0, input, _ => budgetError input
  | budget + 1, input, depth => do
      let afterValue ← scanValue budget input depth
      let delimiter := skipWhitespace afterValue
      match delimiter.current with
      | some ',' => scanElements budget delimiter.advance depth
      | some ']' => return delimiter.advance
      | some _ => syntaxError delimiter "expected ',' or ']' after array element"
      | none => syntaxError delimiter "unterminated array"

end

def validateText (text : String) (limits : Limits) : Except Error Unit := do
  let start := Cursor.mk text.toList 0 limits.maxDepth
  let afterValue ← scanValue (3 * start.remaining + 3) start 0
  let rest := skipWhitespace afterValue
  if rest.rest.isEmpty then return ()
  else syntaxError rest "trailing characters after JSON value"

def preflightBytes (raw : ByteArray) (limits : Limits) : Except Error String := do
  if raw.size > limits.maxBytes then
    throw (Error.mk .tooLarge raw.size
      s!"JSON payload is {raw.size} bytes; limit is {limits.maxBytes}")
  let text ← match String.fromUTF8? raw with
    | some text => .ok text
    | none => .error (Error.mk .invalidUtf8 0 "input is not valid UTF-8")
  validateText text limits
  return text

def parseBytes (raw : ByteArray) (limits : Limits) : Except Error Json := do
  let text ← preflightBytes raw limits
  match Json.parse text with
  | .ok json => return json
  | .error message =>
      throw (Error.mk .leanParser 0
        s!"Lean JSON parser rejected preflighted input: {message}")

def parseString (text : String) (limits : Limits) : Except Error Json :=
  parseBytes text.toUTF8 limits

end MirrorsCore.StrictJson
