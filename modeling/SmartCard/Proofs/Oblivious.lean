-- SUMMARY: Acts that are oblivious of how they are watched, and that putting acts together keeps this.
import SmartCard.Act

/-!
# Oblivious acts

States may differ in how they are watched and in nothing else, and in some states nobody reads the
notes. An act is oblivious of this (`Act.Oblivious`) if from states of the first kind it gives the
same result, reports the same events and leaves such states behind, and from states of the second
kind it leaves no notes. Both are shown together, as acts are put together.
-/

namespace SmartCard

variable {σ τ α β : Type}

/-- Ends that agree: the same result, the same events, and related states. -/
structure Outcome.Agrees (R : σ → σ → Prop) (o₁ o₂ : Outcome σ α) : Prop where
  result : o₁.result = o₂.result
  events : o₁.events = o₂.events
  state : R o₁.state o₂.state

namespace Act

/-- An act that does the same from states related by `R`, and leaves no notes in states of which `P`
holds. -/
structure Oblivious (R : σ → σ → Prop) (P : σ → Prop) (x : Act σ α) : Prop where
  agrees : ∀ {s₁ s₂}, R s₁ s₂ → (x s₁).Agrees R (x s₂)
  mute : ∀ {s}, P s → (x s).notes = [] ∧ P (x s).state

variable {R : σ → σ → Prop} {P : σ → Prop} {Q : τ → τ → Prop} {M : τ → Prop} {x : Act σ α}
  {f : α → Act σ β}

theorem notes_step (f : σ → Except Fault (α × σ)) (s : σ) : (step f s).notes = [] := by
  unfold step
  rcases f s with _ | ⟨_, _⟩ <;> rfl

/-- Acts that agree, followed by the same. -/
theorem agrees_bind {y : Act σ α} {s₁ s₂ : σ} (h : (x s₁).Agrees R (y s₂))
    (hf : ∀ a {s₁ s₂}, R s₁ s₂ → (f a s₁).Agrees R (f a s₂)) :
    ((x >>= f) s₁).Agrees R ((y >>= f) s₂) := by
  rw [bind_apply, bind_apply]
  generalize x s₁ = o₁ at h
  generalize y s₂ = o₂ at h
  obtain ⟨r, s₁', es, _⟩ := o₁
  obtain ⟨_, s₂', _, _⟩ := o₂
  obtain ⟨rfl, rfl, hstate⟩ := h
  cases r with
  | error e => exact ⟨rfl, rfl, hstate⟩
  | ok a =>
    have hnext := hf a hstate
    exact ⟨hnext.result, congrArg (es ++ ·) hnext.events, hnext.state⟩

/-- An act without notes, followed by one without. -/
theorem mute_bind {s : σ} (h : (x s).notes = [] ∧ P (x s).state)
    (hf : ∀ a {s}, P s → (f a s).notes = [] ∧ P (f a s).state) :
    ((x >>= f) s).notes = [] ∧ P ((x >>= f) s).state := by
  rw [bind_apply]
  generalize x s = o at h
  obtain ⟨r, s', es, _⟩ := o
  obtain ⟨rfl, hstate⟩ := h
  cases r with
  | error e => exact ⟨rfl, hstate⟩
  | ok a => exact hf a hstate

namespace Oblivious

/-! ## Single acts -/

protected theorem pure (a : α) : Oblivious R P (pure a : Act σ α) :=
  ⟨fun h => ⟨rfl, rfl, h⟩, fun h => ⟨rfl, h⟩⟩

protected theorem fail (e : Fault) : Oblivious R P (Act.fail e : Act σ α) :=
  ⟨fun h => ⟨rfl, rfl, h⟩, fun h => ⟨rfl, h⟩⟩

protected theorem read {f : σ → α} (hf : ∀ s₁ s₂, R s₁ s₂ → f s₁ = f s₂) :
    Oblivious R P (Act.read f) :=
  ⟨fun h => ⟨congrArg Except.ok (hf _ _ h), rfl, h⟩, fun h => ⟨rfl, h⟩⟩

protected theorem query {f : σ → Except Fault α} (hf : ∀ s₁ s₂, R s₁ s₂ → f s₁ = f s₂) :
    Oblivious R P (Act.query f) :=
  ⟨fun h => ⟨hf _ _ h, rfl, h⟩, fun h => ⟨rfl, h⟩⟩

protected theorem modify {f : σ → σ} (hf : ∀ s₁ s₂, R s₁ s₂ → R (f s₁) (f s₂))
    (hP : ∀ s, P s → P (f s)) : Oblivious R P (Act.modify f) :=
  ⟨fun h => ⟨rfl, rfl, hf _ _ h⟩, fun h => ⟨rfl, hP _ h⟩⟩

/-- From equal states every act does the same. -/
protected theorem refl {x : Act σ α} (h : ∀ s, (x s).notes = []) :
    Oblivious Eq (fun _ => True) x :=
  ⟨fun heq => heq ▸ ⟨rfl, rfl, rfl⟩, fun {s} _ => ⟨h s, trivial⟩⟩

/-! ## Compound acts -/

protected theorem bind (hx : Oblivious R P x) (hf : ∀ a, Oblivious R P (f a)) :
    Oblivious R P (x >>= f) :=
  ⟨fun h => agrees_bind (hx.agrees h) fun a => (hf a).agrees,
    fun h => mute_bind (hx.mute h) fun a => (hf a).mute⟩

protected theorem map (g : α → β) (hx : Oblivious R P x) : Oblivious R P (g <$> x) :=
  hx.bind fun a => .pure (g a)

protected theorem ite {p : Prop} [Decidable p] {y : Act σ α} (hx : Oblivious R P x)
    (hy : Oblivious R P y) : Oblivious R P (if p then x else y) := by
  split
  · exact hx
  · exact hy

/-- An act on a part, where the wholes are related as their parts are. -/
protected theorem zoom {get : σ → τ} {set : σ → τ → σ} {y : Act τ α} (hy : Oblivious Q M y)
    (hget : ∀ s₁ s₂, R s₁ s₂ → Q (get s₁) (get s₂))
    (hset : ∀ s₁ s₂ t₁ t₂, R s₁ s₂ → Q t₁ t₂ → R (set s₁ t₁) (set s₂ t₂))
    (hmute : ∀ s, P s → M (get s)) (hkeep : ∀ s t, P s → M t → P (set s t)) :
    Oblivious R P (y.zoom get set) := by
  constructor
  · intro s₁ s₂ h
    have hends := hy.agrees (hget s₁ s₂ h)
    exact ⟨hends.result, hends.events, hset _ _ _ _ h hends.state⟩
  · intro s h
    have hends := hy.mute (hmute s h)
    exact ⟨hends.1, hkeep _ _ h hends.2⟩

end Oblivious

end Act

end SmartCard
