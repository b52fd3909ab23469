import StateDiagram.Text.Decimal
import StateDiagram.Value

/-!
# Identifiers

An identifier fills a hole of a diagram and names a state or an event.  Scalars are compared by
value and callables by identity, so two callables of one name are two identifiers, and so are the
two roles that one callable can have.
-/

namespace StateDiagram

/-- A function known to the outside under a key.  An empty name makes it anonymous. -/
structure Callable where
  key : Nat
  name : String
  deriving DecidableEq, Repr

namespace Callable

def name? (f : Callable) : Option String :=
  if f.name = "" then none else some f.name

def display (f : Callable) : String := f.name?.getD "<anonymous>"

end Callable

inductive Scalar where
  | text (t : String)
  | number (n : Int64)
  deriving DecidableEq, Repr

namespace Scalar

def display : Scalar → String
  | .text t => t
  | .number n => String.ofList (Text.signedDecimal n.toInt)

def toValue : Scalar → Value
  | .text t => .text t
  | .number n => .ofInt n.toInt

end Scalar

inductive Ident where
  | scalar (s : Scalar)
  /-- Called when its state is entered or its event fires. -/
  | behavior (f : Callable)
  /-- A behavior that also answers requests to construct. -/
  | constructor (f : Callable)
  deriving DecidableEq, Repr

namespace Ident

def text (t : String) : Ident := .scalar (.text t)

def number (n : Int64) : Ident := .scalar (.number n)

def callable? : Ident → Option Callable
  | .scalar _ => none
  | .behavior f | .constructor f => some f

def isCallable (i : Ident) : Bool := i.callable?.isSome

def constructor? : Ident → Option Callable
  | .constructor f => some f
  | _ => none

/-- The name under which the identifier is looked up; empty for an anonymous callable. -/
def label : Ident → String
  | .scalar s => s.display
  | .behavior f | .constructor f => f.name

/-- The form shown in messages, never empty except for the empty text. -/
def display : Ident → String
  | .scalar s => s.display
  | .behavior f | .constructor f => f.display

def toValue : Ident → Value
  | .scalar s => s.toValue
  | .behavior _ | .constructor _ => .null

@[simp] theorem isCallable_scalar (s : Scalar) : (scalar s).isCallable = false := rfl

@[simp] theorem isCallable_behavior (f : Callable) : (behavior f).isCallable = true := rfl

@[simp] theorem isCallable_constructor (f : Callable) : (constructor f).isCallable = true := rfl

theorem display_eq_label {i : Ident} (h : i.label ≠ "") : i.display = i.label := by
  cases i <;> simp_all [display, label, Callable.display, Callable.name?]

end Ident

end StateDiagram
