import StateDiagram.Table.Dictionary

/-!
# Behaviors

What the callables of a diagram do when they are called.  They may keep state that all machines
share, so a call runs in a state monad over it.
-/

namespace StateDiagram

/-- The result of calling a callable with a list of arguments. -/
abbrev Behaviors (σ : Type) := Callable → List Value → StateM σ Value

namespace Behaviors

variable {σ : Type} (run : Behaviors σ)

/-- The arguments of an event's call: the items of a list result, else those of the first call. -/
def argsAfter (result : Value) (args : List Value) : List Value :=
  match result with
  | .list items => items
  | _ => args

/-- Runs the callables of an entry, first that of the next state and then that of the event.  What
the event returns is the output unless it is null. -/
def dispatch (entry : Entry) (args : List Value) : StateM σ Value :=
  match entry.action with
  | .label => pure entry.next.toValue
  | .compose => do
      let result ←
        match entry.next.callable? with
        | some f => run f args
        | none => pure .null
      match entry.event.bind Ident.callable? with
      | none => pure result
      | some f => do
          let output ← run f (argsAfter result args)
          pure (if output.isNull then result else output)

/-- Applies a state: calls it, or takes a scalar as a value. -/
def apply (state : Ident) (args : List Value) : StateM σ Value :=
  match state.callable? with
  | some f => run f args
  | none => pure state.toValue

def construct (state : Ident) (args : List Value) : StateM σ (Option Value) :=
  match state.constructor? with
  | some f => some <$> run f args
  | none => pure none

end Behaviors

end StateDiagram
