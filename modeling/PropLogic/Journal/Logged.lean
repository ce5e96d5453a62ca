import PropLogic.Journal.Record

/-!
# Values with a journal

`Logged α` is a value of type `α` together with the records of its computation, in their order.
-/

namespace PropLogic.Journal

/-- A value and the records of its computation. -/
structure Logged (α : Type) where
  value : α
  records : List Record

namespace Logged

variable {α β : Type}

instance : Monad Logged where
  pure a := ⟨a, []⟩
  bind x f := ⟨(f x.value).value, x.records ++ (f x.value).records⟩

def emit (r : Record) : Logged Unit := ⟨(), [r]⟩

@[simp] theorem value_pure (a : α) : (pure a : Logged α).value = a := rfl

@[simp] theorem records_pure (a : α) : (pure a : Logged α).records = [] := rfl

@[simp] theorem value_bind (x : Logged α) (f : α → Logged β) :
    (x >>= f).value = (f x.value).value := rfl

@[simp] theorem records_bind (x : Logged α) (f : α → Logged β) :
    (x >>= f).records = x.records ++ (f x.value).records := rfl

@[simp] theorem value_emit (r : Record) : (emit r).value = () := rfl

@[simp] theorem records_emit (r : Record) : (emit r).records = [r] := rfl

end Logged

end PropLogic.Journal
