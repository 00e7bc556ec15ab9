/-!
# Deep recursion

Programs may nest as deeply as memory allows, while the stack of one thread is small. A recursion
that can get deep runs some of its levels on the stack of a thread of their own. This changes where
a value is computed and nothing about the value: `deeply_eq` erases it from every statement.
-/

namespace Script

/-- The value of `f`, computed on a new stack. -/
def onFreshStack {α : Type} (f : Unit → α) : α :=
  (Task.spawn f Task.Priority.dedicated).get

@[simp]
theorem onFreshStack_eq {α : Type} (f : Unit → α) : onFreshStack f = f () := rfl

/-- The value of `f`, computed on a new stack at every `period`-th level of a recursion. -/
def deeply {α : Type} (period level : Nat) (f : Unit → α) : α :=
  if level % period = 0 then onFreshStack f else f ()

@[simp]
theorem deeply_eq {α : Type} (period level : Nat) (f : Unit → α) :
    deeply period level f = f () := by
  simp [deeply]

end Script
