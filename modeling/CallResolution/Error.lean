import CallResolution.SymbolKey
import CallResolution.Span

namespace CallResolution

inductive SymbolError where
  | readOnly
  | keyNotFound (key : SymbolKey)
  | duplicateKey (key : SymbolKey)
deriving DecidableEq

def SymbolError.message : SymbolError → String
  | readOnly => "symbol table is read-only"
  | keyNotFound key => "symbol not found: " ++ key.render
  | duplicateKey key => "duplicate symbol: " ++ key.render

inductive RegistrationError where
  | duplicateType (name : String)
  | typeNotFound (name : String)
  | notATemplate (name : String)
  | typeArgCount (name : String) (expected got : Nat)
deriving DecidableEq

def RegistrationError.message : RegistrationError → String
  | duplicateType name => "duplicate type: " ++ name
  | typeNotFound name => "type not found: " ++ name
  | notATemplate name => "'" ++ name ++ "' is not a generic definition"
  | typeArgCount name expected got =>
    "'" ++ name ++ "' expects " ++ toString expected ++ " generic argument(s), got " ++ toString got

inductive CompileError where
  | undefinedSymbol (name : String) (span : Span)
  | noMatchingOverload (name args : String) (span : Span)
  | ambiguousOverload (name candidates : String) (span : Span)
  | unknownType (name : String) (span : Span)
  | scopeTooDeep (limit : Nat) (span : Span)
  | internal (text : String)
  | symbol (error : SymbolError)
  | registration (error : RegistrationError)
deriving DecidableEq

namespace CompileError

def message : CompileError → String
  | undefinedSymbol name span => "at " ++ span.render ++ ": undefined symbol '" ++ name ++ "'"
  | noMatchingOverload name args span =>
    "at " ++ span.render ++ ": no applicable overload for '" ++ name ++ "(" ++ args ++ ")'"
  | ambiguousOverload name candidates span =>
    "at " ++ span.render ++ ": ambiguous call to '" ++ name ++ "': " ++ candidates
  | unknownType name span => "at " ++ span.render ++ ": unknown type '" ++ name ++ "'"
  | scopeTooDeep limit span =>
    "at " ++ span.render ++ ": scope nesting exceeds " ++ toString limit
  | internal text => "internal error: " ++ text
  | symbol e => e.message
  | registration e => e.message

def span : CompileError → Span
  | undefinedSymbol _ s | noMatchingOverload _ _ s | ambiguousOverload _ _ s | unknownType _ s
  | scopeTooDeep _ s => s
  | internal _ | symbol _ | registration _ => .unknown

/-- The error is about the library's own bookkeeping rather than about a form. -/
def isInternal : CompileError → Bool
  | internal _ | symbol _ | registration _ => true
  | _ => false

end CompileError

inductive Error where
  | symbol (error : SymbolError)
  | registration (error : RegistrationError)
  | compilation (error : CompileError)
deriving DecidableEq

def Error.message : Error → String
  | symbol e => "symbol error: " ++ e.message
  | registration e => "registration error: " ++ e.message
  | compilation e => "compilation error: " ++ e.message

inductive EnvironmentError where
  | alreadySealed
  | notSealed
  | registration (error : RegistrationError)
  | symbol (error : SymbolError)
  | compilation (error : CompileError)
deriving DecidableEq

def EnvironmentError.message : EnvironmentError → String
  | alreadySealed => "context is already sealed - cannot register after seal()"
  | notSealed => "context is not sealed - call seal() before reducer()"
  | registration e => "failed to register type: " ++ e.message
  | symbol e => "failed to install root scope: " ++ e.message
  | compilation e => e.message

end CallResolution
