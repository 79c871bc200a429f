-- SUMMARY: Operations that change a state, may fail without losing it, and report events and notes on the way.
import SmartCard.Event

/-!
# Acts

An `Act σ α` is one operation on a state `σ`. It ends with an `Outcome`: a result or a fault, the
state it leaves behind in either case, and everything it reported, in order. Since a fault keeps the
state, whatever happened before the fault (a torn write, a rollback) stays visible to what follows.

Acts are put together with `do`. `Act.onFault` runs a handler after a fault and then lets the fault
pass on, and `Act.zoom` runs an act on a part of a larger state.
-/

namespace SmartCard

/-- How an operation ends. -/
structure Outcome (σ α : Type) where
  result : Except Fault α
  state : σ
  events : List Event := []
  notes : List Note := []

/-- An operation on a state. -/
def Act (σ α : Type) : Type := σ → Outcome σ α

namespace Act

variable {σ τ α β : Type}

protected def pure (a : α) : Act σ α := fun s => ⟨.ok a, s, [], []⟩

/-- Run `x`, then what `f` makes of its result. A fault of `x` ends the act. -/
protected def bind (x : Act σ α) (f : α → Act σ β) : Act σ β := fun s =>
  match x s with
  | ⟨.ok a, s, events, notes⟩ =>
    let next := f a s
    ⟨next.result, next.state, events ++ next.events, notes ++ next.notes⟩
  | ⟨.error e, s, events, notes⟩ => ⟨.error e, s, events, notes⟩

instance : Monad (Act σ) where
  pure := Act.pure
  bind := Act.bind

/-- Fail, leaving the state as it is. -/
def fail (e : Fault) : Act σ α := fun s => ⟨.error e, s, [], []⟩

/-- Look at the state. -/
def read (f : σ → α) : Act σ α := fun s => ⟨.ok (f s), s, [], []⟩

/-- Look at the state with a query that may fail. -/
def query (f : σ → Except Fault α) : Act σ α := fun s => ⟨f s, s, [], []⟩

def modify (f : σ → σ) : Act σ Unit := fun s => ⟨.ok (), f s, [], []⟩

/-- A step that changes the state only if it succeeds. -/
def step (f : σ → Except Fault (α × σ)) : Act σ α := fun s =>
  match f s with
  | .ok (a, s') => ⟨.ok a, s', [], []⟩
  | .error e => ⟨.error e, s, [], []⟩

/-- Report an event. -/
def emit (e : Event) : Act σ Unit := fun s => ⟨.ok (), s, [e], []⟩

/-- Leave a note. -/
def note (n : Note) : Act σ Unit := fun s => ⟨.ok (), s, [], [n]⟩

/-- Run `handler` after a fault of `x`, then fail with the same fault. A fault of the handler wins.
-/
def onFault (x : Act σ α) (handler : Fault → Act σ Unit) : Act σ α := fun s =>
  match x s with
  | ⟨.ok a, s, events, notes⟩ => ⟨.ok a, s, events, notes⟩
  | ⟨.error e, s, events, notes⟩ =>
    let next := Act.bind (handler e) (fun _ => fail e) s
    ⟨next.result, next.state, events ++ next.events, notes ++ next.notes⟩

/-- Run an act on a part of the state. -/
def zoom (get : σ → τ) (set : σ → τ → σ) (x : Act τ α) : Act σ α := fun s =>
  let inner := x (get s)
  ⟨inner.result, set s inner.state, inner.events, inner.notes⟩

/-! ## Evaluation -/

@[simp] theorem pure_apply (a : α) (s : σ) : (pure a : Act σ α) s = ⟨.ok a, s, [], []⟩ := rfl

theorem bind_apply (x : Act σ α) (f : α → Act σ β) (s : σ) :
    (x >>= f) s =
      match x s with
      | ⟨.ok a, s, events, notes⟩ =>
        ⟨(f a s).result, (f a s).state, events ++ (f a s).events, notes ++ (f a s).notes⟩
      | ⟨.error e, s, events, notes⟩ => ⟨.error e, s, events, notes⟩ := rfl

theorem bind_of_ok {x : Act σ α} {f : α → Act σ β} {s s' : σ} {a : α} {es : List Event}
    {ns : List Note} (h : x s = ⟨.ok a, s', es, ns⟩) :
    (x >>= f) s =
      ⟨(f a s').result, (f a s').state, es ++ (f a s').events, ns ++ (f a s').notes⟩ := by
  rw [bind_apply, h]

theorem bind_of_error {x : Act σ α} {f : α → Act σ β} {s s' : σ} {e : Fault} {es : List Event}
    {ns : List Note} (h : x s = ⟨.error e, s', es, ns⟩) :
    (x >>= f) s = ⟨.error e, s', es, ns⟩ := by
  rw [bind_apply, h]

private theorem map_id_act (x : Act σ α) : id <$> x = x := by
  funext s
  show (x >>= fun a => pure a) s = x s
  rw [bind_apply]
  rcases x s with ⟨_ | _, _, _, _⟩ <;> simp

private theorem pure_bind_act (a : α) (f : α → Act σ β) : pure a >>= f = f a := by
  funext s
  rw [bind_of_ok (pure_apply a s)]
  simp

private theorem bind_assoc_act {γ : Type} (x : Act σ α) (f : α → Act σ β) (g : β → Act σ γ) :
    x >>= f >>= g = x >>= fun a => f a >>= g := by
  funext s
  simp only [bind_apply]
  rcases x s with ⟨_ | a, s₁, es, ns⟩
  · rfl
  · rcases h : f a s₁ with ⟨_ | b, s₂, es', ns'⟩ <;> simp [h]

instance : LawfulMonad (Act σ) := LawfulMonad.mk' _ map_id_act pure_bind_act bind_assoc_act

end Act

end SmartCard
