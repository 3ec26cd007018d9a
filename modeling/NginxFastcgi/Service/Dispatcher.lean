/-!
# Reply lists

A task carries the list of the dispatchers its reply has to pass.  Each stage
pushes itself at the front on the way out, and a reply pops the front.
-/

namespace NginxFastcgi.Service

universe u

/-- `CTaskReplyList`, over the type of dispatcher pointers. -/
abbrev CTaskReplyList (δ : Type u) := List δ

namespace CTaskReplyList

variable {δ : Type u}

/-- The popped dispatcher, `none` for `NULL`, and the list afterwards. -/
def popFront : CTaskReplyList δ → Option δ × CTaskReplyList δ
  | [] => (none, [])
  | proc :: rest => (some proc, rest)

/-- The return value and the list afterwards. -/
def pushReplyDispatcher (list : CTaskReplyList δ) : Option δ → Int × CTaskReplyList δ
  | none => (-1, list)
  | some proc => (0, proc :: list)

end CTaskReplyList

end NginxFastcgi.Service
