import Mathlib.Data.List.Basic

namespace neuriplo.model

inductive ModelState where
  | unloaded
  | loading
  | ready
  | failed
  | unavailable
  | unloading
deriving DecidableEq, Repr

def isValidTransition : ModelState → ModelState → Bool
  | .unloaded, next => next = .loading
  | .loading, next => next = .ready || next = .failed || next = .unavailable
  | .ready, next => next = .unloading || next = .unavailable
  | .unloading, next => next = .unloaded
  | .failed, next => next = .unloaded
  | .unavailable, next => next = .ready || next = .unloaded

namespace ModelState

/-- `ModelStateMachine::transitionTo`: a refused transition leaves the state
as it is, and most callers do not look at the answer. -/
def transitionTo (current next : ModelState) : ModelState :=
  if isValidTransition current next then next else current

def startLoad (state : ModelState) : ModelState := state.transitionTo .loading
def markReady (state : ModelState) : ModelState := state.transitionTo .ready
def markFailed (state : ModelState) : ModelState := state.transitionTo .failed
def beginUnload (state : ModelState) : ModelState := state.transitionTo .unloading
def completeUnload (state : ModelState) : ModelState := state.transitionTo .unloaded
def reset (state : ModelState) : ModelState := state.transitionTo .unloaded

end ModelState

end neuriplo.model
