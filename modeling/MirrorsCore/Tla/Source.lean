import Mathlib

/-! Module names, source ranges and bounded diagnostics (`Core/Tla/Source.lean`,
`Core/Tla/Diagnostic.lean`). -/

namespace MirrorsCore.Tla

def isAsciiLetter (character : Char) : Bool :=
  let code := character.toNat
  (0x41 ≤ code && code ≤ 0x5A) || (0x61 ≤ code && code ≤ 0x7A)

def isAsciiDigit (character : Char) : Bool :=
  let code := character.toNat
  0x30 ≤ code && code ≤ 0x39

def isAsciiIdentifierChar (character : Char) : Bool :=
  isAsciiLetter character || isAsciiDigit character || character == '_'

structure ModuleName where
  name : String
  deriving DecidableEq

namespace ModuleName

def valid (raw : String) : Bool :=
  match raw.toList with
  | [] => false
  | first :: rest => (isAsciiLetter first || first == '_') && rest.all isAsciiIdentifierChar

def ofString? (raw : String) : Option ModuleName :=
  if valid raw then some ⟨raw⟩ else none

end ModuleName

structure SourcePosition where
  offset : Nat
  line : Nat
  column : Nat
  deriving DecidableEq, Inhabited

/-- A half-open source range. -/
structure SourceRange where
  start : SourcePosition
  stop : SourcePosition
  deriving DecidableEq, Inhabited

def zeroRange : SourceRange :=
  { start := ⟨0, 1, 1⟩, stop := ⟨0, 1, 1⟩ }

structure SourceIdentity where
  moduleName : ModuleName
  logicalPath : String
  contentSha256 : String
  deriving DecidableEq

structure SourceUnit where
  logicalPath : String
  normalizedText : String
  normalizedUtf8 : ByteArray
  contentSha256 : String

def SourceUnit.identity (unit : SourceUnit) (moduleName : ModuleName) : SourceIdentity :=
  { moduleName, logicalPath := unit.logicalPath, contentSha256 := unit.contentSha256 }

/-! ### Diagnostics -/

inductive Severity where
  | error
  | warning
  | info
  deriving DecidableEq

def Severity.isError : Severity → Bool
  | .error => true
  | .warning => false
  | .info => false

inductive DiagnosticStage where
  | lex
  | parse
  | moduleGraph
  | nameResolution
  | substitution
  | level
  | sourceEvidence
  deriving DecidableEq

structure SourceLocation where
  moduleName : Option ModuleName
  logicalPath : String
  range : SourceRange
  deriving DecidableEq

namespace SourceLocation

def ofUnit (unit : SourceUnit) (range : SourceRange) : SourceLocation :=
  { moduleName := none, logicalPath := unit.logicalPath, range }

def withModule (location : SourceLocation) (moduleName : ModuleName) : SourceLocation :=
  { location with moduleName := some moduleName }

end SourceLocation

structure RelatedLocation where
  message : String
  location : SourceLocation
  deriving DecidableEq

structure Diagnostic where
  code : String
  severity : Severity
  stage : DiagnosticStage
  message : String
  primary : SourceLocation
  related : List RelatedLocation
  arguments : List (String × String)
  deriving DecidableEq

namespace Diagnostic

def error (code : String) (stage : DiagnosticStage) (message : String)
    (primary : SourceLocation) : Diagnostic :=
  { code, severity := .error, stage, message, primary, related := [], arguments := [] }

def withArgument (diagnostic : Diagnostic) (name value : String) : Diagnostic :=
  { diagnostic with arguments := diagnostic.arguments ++ [(name, value)] }

def withRelated (diagnostic : Diagnostic) (message : String) (location : SourceLocation) :
    Diagnostic :=
  { diagnostic with related := diagnostic.related ++ [⟨message, location⟩] }

def hasErrorSeverity (diagnostic : Diagnostic) : Bool := diagnostic.severity.isError

/-- The bytes a diagnostic is charged with. -/
def byteWeight (diagnostic : Diagnostic) : Nat :=
  let locationWeight (location : SourceLocation) : Nat := location.logicalPath.toUTF8.size
  let relatedWeight (related : RelatedLocation) : Nat :=
    related.message.toUTF8.size + locationWeight related.location
  let argumentWeight (argument : String × String) : Nat :=
    argument.1.toUTF8.size + argument.2.toUTF8.size
  diagnostic.code.toUTF8.size + diagnostic.message.toUTF8.size +
    locationWeight diagnostic.primary +
    diagnostic.related.foldl (fun total related => total + relatedWeight related) 0 +
    diagnostic.arguments.foldl (fun total argument => total + argumentWeight argument) 0

end Diagnostic

structure DiagnosticLimits where
  maxCount : Nat
  maxBytes : Nat
  deriving DecidableEq

/-- A bounded accumulation; `dropped` counts what a budget refused. -/
structure DiagnosticBuffer where
  diagnostics : List Diagnostic := []
  byteWeight : Nat := 0
  dropped : Nat := 0
  deriving DecidableEq

namespace DiagnosticBuffer

def empty : DiagnosticBuffer := {}

def push (limits : DiagnosticLimits) (buffer : DiagnosticBuffer) (diagnostic : Diagnostic) :
    DiagnosticBuffer :=
  let weight := diagnostic.byteWeight
  if buffer.diagnostics.length ≥ limits.maxCount ||
      buffer.byteWeight + weight > limits.maxBytes then
    { buffer with dropped := buffer.dropped + 1 }
  else
    { diagnostics := buffer.diagnostics ++ [diagnostic]
      byteWeight := buffer.byteWeight + weight
      dropped := buffer.dropped }

/-- Append without consulting the budgets; only truncation notices do this. -/
def pushForced (buffer : DiagnosticBuffer) (diagnostic : Diagnostic) : DiagnosticBuffer :=
  { diagnostics := buffer.diagnostics ++ [diagnostic]
    byteWeight := buffer.byteWeight + diagnostic.byteWeight
    dropped := buffer.dropped }

def truncated (buffer : DiagnosticBuffer) : Bool := buffer.dropped > 0

def hasErrors (buffer : DiagnosticBuffer) : Bool :=
  buffer.diagnostics.any (·.hasErrorSeverity)

/-- A refused or accepted diagnostic never removes an earlier one. -/
theorem hasErrors_push {limits : DiagnosticLimits} {buffer : DiagnosticBuffer}
    {diagnostic : Diagnostic} (h : buffer.hasErrors = true) :
    (push limits buffer diagnostic).hasErrors = true := by
  unfold push
  dsimp only
  split
  · exact h
  · simp only [hasErrors, List.any_append] at h ⊢
    rw [h, Bool.true_or]

theorem hasErrors_or_truncated_push {limits : DiagnosticLimits} {buffer : DiagnosticBuffer}
    {diagnostic : Diagnostic} (h : diagnostic.hasErrorSeverity = true) :
    (push limits buffer diagnostic).hasErrors = true ∨
      (push limits buffer diagnostic).truncated = true := by
  unfold push
  dsimp only
  split
  · exact Or.inr (by simp [truncated])
  · exact Or.inl (by simp [hasErrors, h])

theorem hasErrors_pushForced {buffer : DiagnosticBuffer} {diagnostic : Diagnostic}
    (h : diagnostic.hasErrorSeverity = true) :
    (pushForced buffer diagnostic).hasErrors = true := by
  simp [pushForced, hasErrors, h]

end DiagnosticBuffer
end MirrorsCore.Tla
