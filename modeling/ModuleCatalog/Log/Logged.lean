import ModuleCatalog.Failure
import ModuleCatalog.Log.Basic

/-!
# Results with the records written on the way

A run writes records until it ends or fails. The records of a failed run are those written before.
-/

namespace ModuleCatalog

structure Logged (α : Type) where
  records : List Log.Record
  outcome : Except Failure α

namespace Logged

variable {α β : Type}

/-- A result without records. -/
def of (outcome : Except Failure α) : Logged α := ⟨[], outcome⟩

/-- Write one record. -/
def note (logger : Text) (level : Log.Level) (message : Text) : Logged Unit :=
  ⟨[⟨Log.loggerName (some logger), level, message⟩], .ok ()⟩

def fail (failure : Failure) : Logged α := of (.error failure)

/-- One run after another. -/
def andThen (x : Logged α) (f : α → Logged β) : Logged β :=
  match x.outcome with
  | .error failure => ⟨x.records, .error failure⟩
  | .ok a => ⟨x.records ++ (f a).records, (f a).outcome⟩

instance : Monad Logged where
  pure a := of (.ok a)
  bind := andThen

theorem pure_eq (a : α) : (pure a : Logged α) = ⟨[], .ok a⟩ := rfl

theorem bind_eq (x : Logged α) (f : α → Logged β) : x >>= f = andThen x f := rfl

@[simp] theorem outcome_pure (a : α) : (pure a : Logged α).outcome = .ok a := rfl

@[simp] theorem outcome_of (x : Except Failure α) : (of x).outcome = x := rfl

@[simp] theorem outcome_fail (failure : Failure) : (fail failure : Logged α).outcome = .error failure := rfl

theorem outcome_bind (x : Logged α) (f : α → Logged β) :
    (x >>= f).outcome = x.outcome.bind fun a => (f a).outcome := by
  rw [bind_eq, andThen]
  cases x.outcome <;> rfl

end Logged

end ModuleCatalog
