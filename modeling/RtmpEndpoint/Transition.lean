/-!
# Transitions

A fallible operation on a state. What it did before it failed stays done, so the state comes back
in both cases.
-/

namespace RtmpEndpoint

def Transition (σ ε α : Type) := σ → Except ε α × σ

namespace Transition

variable {σ ε α β : Type}

def andThen (x : Transition σ ε α) (f : α → Transition σ ε β) : Transition σ ε β := fun s =>
  match x s with
  | (.ok a, s) => f a s
  | (.error e, s) => (.error e, s)

instance : Monad (Transition σ ε) where
  pure a := fun s => (.ok a, s)
  bind := andThen

/-- Fails without touching the state. -/
def fail (e : ε) : Transition σ ε α := fun s => (.error e, s)

/-- Reads the state. -/
def inspect (f : σ → α) : Transition σ ε α := fun s => (.ok (f s), s)

/-- Changes the state. -/
def update (f : σ → σ) : Transition σ ε Unit := fun s => (.ok (), f s)

/-- Answers and changes the state. -/
def answer (f : σ → α × σ) : Transition σ ε α := fun s => (.ok (f s).1, (f s).2)

/-- Carries out an operation on a part of the state. -/
def focus {τ δ : Type} (part : σ → τ) (put : τ → σ → σ) (wrap : δ → ε)
    (x : Transition τ δ α) : Transition σ ε α := fun s =>
  match x (part s) with
  | (.ok a, t) => (.ok a, put t s)
  | (.error e, t) => (.error (wrap e), put t s)

@[simp] theorem pure_apply (a : α) (s : σ) : (pure a : Transition σ ε α) s = (.ok a, s) := rfl

theorem bind_apply (x : Transition σ ε α) (f : α → Transition σ ε β) (s : σ) :
    (x >>= f) s = match x s with
      | (.ok a, s) => f a s
      | (.error e, s) => (.error e, s) := rfl

theorem bind_ok {x : Transition σ ε α} {f : α → Transition σ ε β} {s t : σ} {a : α}
    (h : x s = (.ok a, t)) : (x >>= f) s = f a t := by simp [bind_apply, h]

theorem bind_error {x : Transition σ ε α} {f : α → Transition σ ε β} {s t : σ} {e : ε}
    (h : x s = (.error e, t)) : (x >>= f) s = (.error e, t) := by simp [bind_apply, h]

@[simp] theorem update_apply (f : σ → σ) (s : σ) :
    (update f : Transition σ ε Unit) s = (.ok (), f s) := rfl
@[simp] theorem inspect_apply (f : σ → α) (s : σ) :
    (inspect f : Transition σ ε α) s = (.ok (f s), s) := rfl
@[simp] theorem fail_apply (e : ε) (s : σ) :
    (fail e : Transition σ ε α) s = (.error e, s) := rfl

end Transition

end RtmpEndpoint
