/-
  DeviceEvents.Proofs.Stateful — programs with a state, step by step.
-/

namespace DeviceEvents

variable {σ α β : Type} {m : StateM σ α} {f : α → StateM σ β} {s t : σ} {a : α}

/-- A program goes on with what its first step gives and leaves. -/
theorem bind_eq (h : m s = (a, t)) : (m >>= f) s = f a t :=
  congrArg (fun p : α × σ => f p.1 p.2) h

end DeviceEvents
