-- SUMMARY: Acts as functions from a state to a result and a state, leaving aside what they report.
import SmartCard.Memory

/-!
# Execution of acts

`Act.exec` is how an act ends when events and notes are left aside. Each way of putting acts
together has one equation here, so that the execution of a compound act is computed by `simp` and
later modules never unfold the combinators.
-/

namespace SmartCard

/-- A chain of checks succeeds when each of them does. -/
theorem bind_eq_ok_iff {α β : Type} {x : Except Fault α} {f : α → Except Fault β} {b : β} :
    (x >>= f) = .ok b ↔ ∃ a, x = .ok a ∧ f a = .ok b := by
  rcases x with e | a
  · simp [bind, Except.bind]
  · simp [bind, Except.bind]

namespace Act

variable {σ τ α β : Type}

/-- The result of an act and the state it leaves behind. -/
def exec (x : Act σ α) (s : σ) : Except Fault α × σ := ((x s).result, (x s).state)

theorem result_eq_exec (x : Act σ α) (s : σ) : (x s).result = (x.exec s).1 := rfl

theorem state_eq_exec (x : Act σ α) (s : σ) : (x s).state = (x.exec s).2 := rfl

/-! ## Single acts -/

@[simp] theorem exec_pure (a : α) (s : σ) : (pure a : Act σ α).exec s = (.ok a, s) := rfl

@[simp] theorem exec_fail (e : Fault) (s : σ) : (fail e : Act σ α).exec s = (.error e, s) := rfl

@[simp] theorem exec_read (f : σ → α) (s : σ) : (read f).exec s = (.ok (f s), s) := rfl

@[simp] theorem exec_query (f : σ → Except Fault α) (s : σ) : (query f).exec s = (f s, s) := rfl

@[simp] theorem exec_modify (f : σ → σ) (s : σ) : (modify f).exec s = (.ok (), f s) := rfl

@[simp] theorem exec_emit (e : Event) (s : σ) : (emit e : Act σ Unit).exec s = (.ok (), s) := rfl

@[simp] theorem exec_note (n : Note) (s : σ) : (note n : Act σ Unit).exec s = (.ok (), s) := rfl

theorem exec_step (f : σ → Except Fault (α × σ)) (s : σ) :
    (step f).exec s = match f s with
      | .ok (a, s') => (.ok a, s')
      | .error e => (.error e, s) := by
  unfold exec step
  rcases f s with _ | ⟨_, _⟩ <;> rfl

/-! ## Compound acts -/

@[simp] theorem exec_bind (x : Act σ α) (f : α → Act σ β) (s : σ) :
    (x >>= f).exec s = match (x.exec s).1 with
      | .ok a => (f a).exec (x.exec s).2
      | .error e => (.error e, (x.exec s).2) := by
  simp only [exec, bind_apply]
  rcases x s with ⟨_ | _, _, _, _⟩ <;> rfl

@[simp] theorem exec_map (f : α → β) (x : Act σ α) (s : σ) :
    (f <$> x).exec s = ((x.exec s).1.map f, (x.exec s).2) := by
  show (x >>= fun a => pure (f a)).exec s = _
  rw [exec_bind]
  rcases (x.exec s).1 with _ | _ <;> rfl

@[simp] theorem exec_onFault (x : Act σ α) (handler : Fault → Act σ Unit) (s : σ) :
    (x.onFault handler).exec s = match (x.exec s).1 with
      | .ok a => (.ok a, (x.exec s).2)
      | .error e => match ((handler e).exec (x.exec s).2).1 with
        | .ok _ => (.error e, ((handler e).exec (x.exec s).2).2)
        | .error e' => (.error e', ((handler e).exec (x.exec s).2).2) := by
  simp only [exec, onFault, Act.bind]
  rcases x s with ⟨e | _, s', _, _⟩
  · rcases h : handler e s' with ⟨_ | _, _, _, _⟩ <;> simp [h, fail]
  · rfl

theorem exec_bind_of_ok {x : Act σ α} {f : α → Act σ β} {s s' : σ} {a : α}
    (h : x.exec s = (.ok a, s')) : (x >>= f).exec s = (f a).exec s' := by
  rw [exec_bind, h]

theorem exec_bind_of_error {x : Act σ α} {f : α → Act σ β} {s s' : σ} {e : Fault}
    (h : x.exec s = (.error e, s')) : (x >>= f).exec s = (.error e, s') := by
  rw [exec_bind, h]

theorem exec_bind_eq_ok {x : Act σ α} {f : α → Act σ β} {s s' : σ} {b : β}
    (h : (x >>= f).exec s = (.ok b, s')) :
    ∃ a s₁, x.exec s = (.ok a, s₁) ∧ (f a).exec s₁ = (.ok b, s') := by
  rw [exec_bind] at h
  rcases hx : x.exec s with ⟨e | a, s₁⟩
  · rw [hx] at h
    cases h
  · rw [hx] at h
    exact ⟨a, s₁, rfl, h⟩

theorem exec_query_bind_of_ok (f : σ → Except Fault α) {g : α → Act σ β} {s : σ} {a : α}
    (h : f s = .ok a) :
    (query f >>= g).exec s = (g a).exec s := by
  rw [exec_bind, exec_query, h]

theorem exec_query_bind_of_error (f : σ → Except Fault α) {g : α → Act σ β} {s : σ} {e : Fault}
    (h : f s = .error e) : (query f >>= g).exec s = (.error e, s) := by
  rw [exec_bind, exec_query, h]

theorem exec_query_bind_eq_ok {f : σ → Except Fault α} {g : α → Act σ β} {s s' : σ} {b : β}
    (h : (query f >>= g).exec s = (.ok b, s')) :
    ∃ a, f s = .ok a ∧ (g a).exec s = (.ok b, s') := by
  obtain ⟨a, s₁, hfirst, hg⟩ := exec_bind_eq_ok h
  rw [exec_query] at hfirst
  obtain ⟨hf, hs⟩ := Prod.mk.inj hfirst
  subst hs
  exact ⟨a, hf, hg⟩

theorem exec_onFault_of_ok {x : Act σ α} {handler : Fault → Act σ Unit} {s s' : σ} {a : α}
    (h : x.exec s = (.ok a, s')) : (x.onFault handler).exec s = (.ok a, s') := by
  rw [exec_onFault, h]

/-- A fault passes on once its handler is done. -/
theorem exec_onFault_of_error {x : Act σ α} {handler : Fault → Act σ Unit} {s s' s'' : σ}
    {e : Fault} (h : x.exec s = (.error e, s')) (hh : (handler e).exec s' = (.ok (), s'')) :
    (x.onFault handler).exec s = (.error e, s'') := by
  simp only [exec_onFault, h, hh]

/-- A query that succeeds has changed nothing, whatever its handler would have done. -/
theorem exec_onFault_query_eq_ok {f : σ → Except Fault α} {handler : Fault → Act σ Unit} {s s' : σ}
    {a : α} (h : ((query f).onFault handler).exec s = (.ok a, s')) : f s = .ok a ∧ s' = s := by
  rw [exec_onFault, exec_query] at h
  rcases hf : f s with e | a'
  · rw [hf] at h
    dsimp only at h
    split at h <;> cases h
  · rw [hf] at h
    cases h
    exact ⟨rfl, rfl⟩

@[simp] theorem exec_zoom (get : σ → τ) (set : σ → τ → σ) (x : Act τ α) (s : σ) :
    (x.zoom get set).exec s = ((x.exec (get s)).1, set s (x.exec (get s)).2) := rfl

@[simp] theorem exec_ite (c : Prop) [Decidable c] (x y : Act σ α) (s : σ) :
    (if c then x else y).exec s = if c then x.exec s else y.exec s := by
  split <;> rfl

/-! ## Effects -/

/-- The execution of an act whose value is of no interest. -/
def effect (x : Act σ α) (s : σ) : Except Fault Unit × σ :=
  ((x.exec s).1.map fun _ => (), (x.exec s).2)

@[simp] theorem effect_unit (x : Act σ Unit) (s : σ) : x.effect s = x.exec s := by
  unfold effect
  rcases x.exec s with ⟨_ | _, _⟩ <;> rfl

@[simp] theorem effect_map (f : α → β) (x : Act σ α) (s : σ) : (f <$> x).effect s = x.effect s := by
  simp only [effect, exec_map]
  rcases (x.exec s).1 with _ | _ <;> rfl

/-- What follows an act adds nothing to its effect if it succeeds without changing the state. -/
theorem effect_bind_of_silent {x : Act σ α} {f : α → Act σ β} {s : σ}
    (h : ∀ a s', ∃ b, (f a).exec s' = (.ok b, s')) : (x >>= f).effect s = x.effect s := by
  simp only [effect, exec_bind]
  rcases (x.exec s).1 with e | a
  · rfl
  · obtain ⟨b, hb⟩ := h a (x.exec s).2
    simp only [hb]
    rfl

end Act

namespace Memory

@[simp] theorem exec_onStore {α : Type} (x : Act Store α) (m : Memory) :
    (onStore x).exec m = ((x.exec m.store).1, { m with store := (x.exec m.store).2 }) := rfl

@[simp] theorem exec_setTransaction (t : Transaction) (m : Memory) :
    (setTransaction t).exec m = (.ok (), { m with transaction := t }) := rfl

end Memory

end SmartCard
