-- SUMMARY: Acts that run alike from related states, and that putting acts together keeps this.
import SmartCard.Proofs.Exec

/-!
# Acts that run alike

An act runs alike from related states when both runs give the same result and leave related states
behind (`Act.Alike`). The first run may also fail for want of room in the commit buffer, in which
case nothing is said about the second: the relation is meant for a run in a transaction beside one
without.
-/

namespace SmartCard

namespace Act

variable {σ τ α β : Type} {R : σ → σ → Prop} {Q : τ → τ → Prop}

/-- Ends of two runs that agree, or the first for want of room. -/
inductive Agree (R : σ → σ → Prop) : Except Fault α × σ → Except Fault α × σ → Prop where
  | full {e : Fault} {s₁ : σ} {r₂ : Except Fault α × σ} :
      e.isBufferFull = true → Agree R (.error e, s₁) r₂
  | same {r : Except Fault α} {s₁ s₂ : σ} : R s₁ s₂ → Agree R (r, s₁) (r, s₂)

/-- An act whose runs from related states agree. -/
def Alike (R : σ → σ → Prop) (x : Act σ α) : Prop :=
  ∀ s₁ s₂, R s₁ s₂ → Agree R (x.exec s₁) (x.exec s₂)

/-! ## Single acts -/

/-- An act that looks at nothing and changes nothing. -/
theorem Alike.silent {x : Act σ α} {r : Except Fault α} (hx : ∀ s, x.exec s = (r, s)) :
    Alike R x := by
  intro s₁ s₂ h
  rw [hx, hx]
  exact .same h

/-- From equal states every act runs alike. -/
theorem Alike.refl (x : Act σ α) : Alike Eq x := by
  rintro s _ rfl
  exact .same rfl

theorem Alike.pure (a : α) : Alike R (Pure.pure a : Act σ α) := .silent fun s => exec_pure a s

theorem Alike.fail (e : Fault) : Alike R (Act.fail e : Act σ α) := .silent fun s => exec_fail e s

theorem Alike.emit (e : Event) : Alike R (Act.emit e : Act σ Unit) :=
  .silent fun s => exec_emit e s

theorem Alike.note (n : Note) : Alike R (Act.note n : Act σ Unit) :=
  .silent fun s => exec_note n s

theorem Alike.query {f : σ → Except Fault α} (hf : ∀ s₁ s₂, R s₁ s₂ → f s₁ = f s₂) :
    Alike R (Act.query f) := by
  intro s₁ s₂ h
  rw [exec_query, exec_query, hf s₁ s₂ h]
  exact .same h

theorem Alike.read {f : σ → α} (hf : ∀ s₁ s₂, R s₁ s₂ → f s₁ = f s₂) :
    Alike R (Act.read f) := by
  intro s₁ s₂ h
  rw [exec_read, exec_read, hf s₁ s₂ h]
  exact .same h

theorem Alike.modify {f : σ → σ} (hf : ∀ s₁ s₂, R s₁ s₂ → R (f s₁) (f s₂)) :
    Alike R (Act.modify f) := by
  intro s₁ s₂ h
  rw [exec_modify, exec_modify]
  exact .same (hf s₁ s₂ h)

/-! ## Compound acts -/

theorem Alike.bind {x : Act σ α} {f : α → Act σ β} (hx : Alike R x) (hf : ∀ a, Alike R (f a)) :
    Alike R (x >>= f) := by
  intro s₁ s₂ h
  have hends := hx s₁ s₂ h
  rw [exec_bind, exec_bind]
  generalize x.exec s₁ = r₁ at hends
  generalize x.exec s₂ = r₂ at hends
  cases hends with
  | full hfull => exact .full hfull
  | @same r s₁ s₂ h' =>
    rcases r with e | a
    · exact .same h'
    · exact hf a s₁ s₂ h'

theorem Alike.map {x : Act σ α} (f : α → β) (hx : Alike R x) : Alike R (f <$> x) := by
  intro s₁ s₂ h
  have hends := hx s₁ s₂ h
  rw [exec_map, exec_map]
  generalize x.exec s₁ = r₁ at hends
  generalize x.exec s₂ = r₂ at hends
  cases hends with
  | full hfull => exact .full hfull
  | same h' => exact .same h'

/-- A handler that only reports. -/
theorem Alike.onFault {x : Act σ α} {handler : Fault → Act σ Unit} (hx : Alike R x)
    (hh : ∀ e s, (handler e).exec s = (.ok (), s)) : Alike R (x.onFault handler) := by
  have hexec : ∀ s, (x.onFault handler).exec s = x.exec s := by
    intro s
    rw [exec_onFault]
    rcases x.exec s with ⟨e | a, s'⟩
    · simp only [hh]
    · rfl
  intro s₁ s₂ h
  rw [hexec, hexec]
  exact hx s₁ s₂ h

/-- An act on a part, where the wholes are related as their parts are. -/
theorem Alike.zoom {get : σ → τ} {set : σ → τ → σ} {x : Act τ α} (hx : Alike Q x)
    (hget : ∀ s₁ s₂, R s₁ s₂ → Q (get s₁) (get s₂))
    (hset : ∀ s₁ s₂ t₁ t₂, R s₁ s₂ → Q t₁ t₂ → R (set s₁ t₁) (set s₂ t₂)) :
    Alike R (x.zoom get set) := by
  intro s₁ s₂ h
  have hends := hx _ _ (hget s₁ s₂ h)
  rw [exec_zoom, exec_zoom]
  generalize x.exec (get s₁) = r₁ at hends
  generalize x.exec (get s₂) = r₂ at hends
  cases hends with
  | full hfull => exact .full hfull
  | same h' => exact .same (hset _ _ _ _ h h')

theorem Alike.ite {p : Prop} [Decidable p] {x y : Act σ α} (hx : Alike R x) (hy : Alike R y) :
    Alike R (if p then x else y) := by
  split
  · exact hx
  · exact hy

end Act

end SmartCard
