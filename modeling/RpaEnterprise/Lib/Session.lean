import Mathlib.Logic.Function.Basic

/-!
# Transactions that interleave

A transaction under `READ COMMITTED` reads statement by statement, each
statement seeing what was committed when it started, and then writes and
commits.  A script is such a transaction up to its writes: it asks for the
store as often as it has statements and ends with the write it wants or with an
error.  Its writes and its commit are one step, so a script says everything
that other transactions can come between.
-/

namespace RpaEnterprise.Lib

inductive Script (Store Error Value : Type) where
  | done (value : Value)
  | fail (error : Error)
  | read (next : Store → Script Store Error Value)

namespace Script

variable {Store Error Value Result : Type}

def bind (script : Script Store Error Value) (rest : Value → Script Store Error Result) :
    Script Store Error Result :=
  match script with
  | .done value => rest value
  | .fail error => .fail error
  | .read next => .read fun store => (next store).bind rest

instance : Monad (Script Store Error) where
  pure := .done
  bind := bind

/-- A computation on values already read. -/
def lift : Except Error Value → Script Store Error Value
  | .ok value => .done value
  | .error error => .fail error

/-- One statement: a query that finds its value or refuses. -/
def query (select : Store → Except Error Value) : Script Store Error Value :=
  .read fun store => lift (select store)

end Script

end RpaEnterprise.Lib
