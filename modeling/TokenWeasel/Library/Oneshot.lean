/-!
# Oneshot channels

The receiving half of a channel that carries at most one value.  The sender is whoever holds the
right to call `send`, which consumes it; the receiver can be dropped at any time.
-/

namespace TokenWeasel.Library

universe u

/-- A oneshot channel seen from its receiver. -/
inductive Oneshot (α : Type u) where
  /-- The receiver is alive and nothing has been sent. -/
  | empty
  /-- A value was delivered and has not been read. -/
  | full (value : α)
  /-- The receiver was dropped. -/
  | closed
  deriving DecidableEq, Repr

namespace Oneshot

variable {α : Type u}

/-- `Sender::send` gives the value back exactly when the receiver was already dropped. -/
def send (rx : Oneshot α) (value : α) : Except α (Oneshot α) :=
  match rx with
  | .closed => .error value
  | _ => .ok (.full value)

/-- What dropping the receiver drops with it: a value delivered and not read. -/
def unread : Oneshot α → Option α
  | .full value => some value
  | _ => none

/-- Whether the receiver has not been dropped. -/
def alive : Oneshot α → Bool
  | .closed => false
  | _ => true

@[simp] theorem alive_empty : (empty : Oneshot α).alive = true := rfl
@[simp] theorem alive_full (v : α) : (full v).alive = true := rfl
@[simp] theorem alive_closed : (closed : Oneshot α).alive = false := rfl

end Oneshot

end TokenWeasel.Library
