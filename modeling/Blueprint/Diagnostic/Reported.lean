import Blueprint.Diagnostic.Basic

/-!
# Values with problems

What is computed while problems are reported: a value, and the problems in the order in which they
were met. One computation after the other reports the problems of both.
-/

namespace Blueprint

/-- A value with the problems that were met on the way to it. -/
structure Reported (α : Type) where
  /-- The value. -/
  value : α
  /-- The problems. -/
  diagnostics : List Diagnostic := []
  deriving DecidableEq, Repr

namespace Reported

variable {α β : Type}

instance : Monad Reported where
  pure value := ⟨value, []⟩
  bind first next :=
    ⟨(next first.value).value, first.diagnostics ++ (next first.value).diagnostics⟩

/-- A value alone reports nothing. -/
@[simp] theorem pure_value (value : α) : (pure value : Reported α).value = value := rfl

/-- A value alone reports nothing. -/
@[simp] theorem pure_diagnostics (value : α) : (pure value : Reported α).diagnostics = [] := rfl

/-- The later computation continues with the value of the earlier one. -/
@[simp] theorem bind_value (first : Reported α) (next : α → Reported β) :
    (first >>= next).value = (next first.value).value := rfl

/-- The problems of the earlier computation come first. -/
@[simp] theorem bind_diagnostics (first : Reported α) (next : α → Reported β) :
    (first >>= next).diagnostics =
      first.diagnostics ++ (next first.value).diagnostics := rfl

/-- Reports a problem at a place. -/
def report (issue : Issue) (position : Option Position) : Reported Unit :=
  ⟨(), [.of issue position]⟩

/-- Collects what a computation yields for the items of a list. -/
def collect (f : α → Reported (Option β)) : List α → Reported (List β)
  | [] => pure []
  | item :: rest => do
    let first ← f item
    let others ← collect f rest
    return first.toList ++ others

end Reported

end Blueprint
