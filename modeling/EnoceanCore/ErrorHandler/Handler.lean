import EnoceanCore.Lib.Traced

/-!
# Error handlers

`ErrorHandler<T, E>` holds a value or an error. Each of its error constructors writes one record
to the log; the constructor with a value writes none.

The four overloads of a monadic operation differ in the reference that the function is given,
so they are one definition with the overload as an argument. `and_then` and `transform` pass an
error on through the constructor with a `std::unexpected`, which writes a record.
-/

namespace EnoceanCore

open Lib

/-- An enumeration of errors with the names of its `ErrorTraits`. -/
structure ErrorEnum where
  Code : Type
  name : Code → String := fun _ => "Unknown Error"

/-- A record of the log, at level error. -/
structure LogRecord where
  text : String
  deriving DecidableEq, Repr

/-- What an error constructor is called with, and the name it looks up. Only one of the
constructors has a message. -/
structure Creation where
  loc : String
  errorName : String
  customMsg : Option String
  deriving DecidableEq, Repr

/-- The record that the constructor writes. -/
def Creation.record : Creation → LogRecord
  | ⟨loc, errorName, some customMsg⟩ =>
    ⟨"Error at " ++ loc ++ ": " ++ errorName ++ " - " ++ customMsg⟩
  | ⟨loc, errorName, none⟩ => ⟨"Error at " ++ loc ++ ": " ++ errorName⟩

/-- The `internal_result` of an `ErrorHandler`. -/
structure ErrorHandler (T : Type) (E : ErrorEnum) where
  internalResult : Except E.Code T

/-- The references through which an overload can pass what the handler holds. -/
inductive RefQualifier where
  | lvalue
  | constLvalue
  | rvalue
  | constRvalue
  deriving DecidableEq, Repr

/-- An overload of an operation, and what `function_name` is in it. -/
structure Overload where
  qualifier : RefQualifier
  functionName : String
  deriving DecidableEq, Repr

namespace ErrorHandler

variable {T U : Type} {E G : ErrorEnum}

/-! ## Constructors -/

/-- The constructor with a value. -/
def ofValue (value : T) : Traced LogRecord (ErrorHandler T E) := pure ⟨.ok value⟩

/-- The constructor with an error and a message. -/
def ofError (error : E.Code) (customMsg loc : String) : Traced LogRecord (ErrorHandler T E) := do
  Traced.emit (Creation.record ⟨loc, E.name error, some customMsg⟩)
  return ⟨.error error⟩

/-- The constructor with a `std::unexpected`. -/
def ofUnexpected (unex : E.Code) (loc : String) : Traced LogRecord (ErrorHandler T E) := do
  Traced.emit (Creation.record ⟨loc, E.name unex, none⟩)
  return ⟨.error unex⟩

/-! ## Monadic operations -/

def andThen (o : Overload) (f : RefQualifier → T → Traced LogRecord (ErrorHandler U E))
    (h : ErrorHandler T E) : Traced LogRecord (ErrorHandler U E) :=
  match h.internalResult with
  | .ok value => f o.qualifier value
  | .error error => ofUnexpected error o.functionName

def transform (o : Overload) (f : RefQualifier → T → Traced LogRecord U) (h : ErrorHandler T E) :
    Traced LogRecord (ErrorHandler U E) :=
  match h.internalResult with
  | .ok value => f o.qualifier value >>= ofValue
  | .error error => ofUnexpected error o.functionName

def orElse (o : Overload) (f : RefQualifier → E.Code → Traced LogRecord (ErrorHandler T G))
    (h : ErrorHandler T E) : Traced LogRecord (ErrorHandler T G) :=
  match h.internalResult with
  | .ok value => ofValue value
  | .error error => f o.qualifier error

def transformError (o : Overload) (f : RefQualifier → E.Code → Traced LogRecord G.Code)
    (h : ErrorHandler T E) : Traced LogRecord (ErrorHandler T G) :=
  match h.internalResult with
  | .ok value => ofValue value
  | .error error => do
    let error ← f o.qualifier error
    ofError error "Error transformed" o.functionName

end ErrorHandler

end EnoceanCore
