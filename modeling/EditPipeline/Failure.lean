/-!
# Failures

The error of an editor, an edit, a marker or a plugin.  Each caller may put
words of its own around it; a cancellation is recognised through all of them, and
by nothing but being one: a message that only reads alike is no cancellation.
-/

namespace EditPipeline

/-- Why a call failed. -/
inductive Failure where
  /-- The work stopped because cancellation was requested. -/
  | cancelled
  /-- Any other cause. -/
  | message (text : String)
  /-- A failure with the words of a caller around it. -/
  | context (text : String) (inner : Failure)
deriving DecidableEq, Repr, Inhabited

namespace Failure

/-- Whether the innermost cause is a cancellation. -/
def isCancelled : Failure → Bool
  | .cancelled => true
  | .message _ => false
  | .context _ inner => inner.isCancelled

/-- The outermost words. -/
def text : Failure → String
  | .cancelled => "operation was cancelled"
  | .message text => text
  | .context text _ => text

/-- The words of every layer, the outermost first. -/
def chain : Failure → List String
  | .context text inner => text :: inner.chain
  | failure => [failure.text]

/-- Why a call failed, if it did. -/
def of? {α : Type} : Except Failure α → Option Failure
  | .ok _ => none
  | .error failure => some failure

@[simp] theorem of?_ok {α : Type} (value : α) : of? (.ok value) = none := rfl

@[simp] theorem of?_error {α : Type} (failure : Failure) :
    of? (.error failure : Except Failure α) = some failure := rfl

end Failure

/-- The words of a chain of causes on one line. -/
def chainText (chain : List String) : String := ": ".intercalate chain

end EditPipeline
