-- SUMMARY: Reachable sessions, and the session invariant that all of them satisfy.
import SmartCard.Proofs.Image.PowerUp
import SmartCard.Proofs.Session.Effects

/-!
# Reachable sessions

A session is reachable when commands led to it from a new card. Any command counts, whether it
succeeds or not, and so do restorations from any image.
-/

namespace SmartCard

/-- A matching engine that gives every candidate the same score. -/
structure ConstantScore where
  score : Int16

instance : Matcher ConstantScore where
  score m _ _ _ := (m.score, m)

namespace Session

variable {μ : Type} [Matcher μ]

/-- Sessions to which commands lead from a new card. -/
inductive Reachable : Session μ → Prop where
  | start {c : Config} {card : Card} : Card.new c = .ok card → Reachable (.start card)
  | step {s : Session μ} (c : Command μ) : Reachable s → Reachable (Session.step c s).state

/-- The session invariant. -/
structure Sound (s : Session μ) : Prop where
  config : s.card.config.validate = .ok ()
  memory : s.card.memory.Sound s.card.config
  settled : s.card.memory.Settled

omit [Matcher μ] in
theorem sound_start {c : Config} {card : Card} (h : Card.new c = .ok card) :
    Sound (.start card : Session μ) := by
  unfold Card.new at h
  split at h
  next hvalid =>
    cases h
    exact ⟨hvalid, .empty c, Memory.settled_of_idle rfl⟩
  next => cases h

theorem card_step (c : Command μ) (s : Session μ) :
    (step c s).state.card = ((perform c).exec s).2.card := rfl

theorem card_step_restore (config : Config) (bytes : List UInt8) (s : Session μ) :
    (step (.restore config bytes) s).state.card = ((Card.restore config bytes).exec s.card).2 := by
  rw [card_step, perform, Act.exec_map]
  rfl

theorem result_step_restore (config : Config) (bytes : List UInt8) (s : Session μ) :
    (step (.restore config bytes) s).result =
      ((Card.restore config bytes).exec s.card).1.map fun _ => Reply.done := by
  show ((perform (.restore config bytes)).exec s).1 = _
  rw [perform, Act.exec_map]
  rfl

/-- The card after a command that is not a restoration. -/
theorem Sound.card_step {s : Session μ} (h : s.Sound) {c : Command μ} (hc : c.isRestore = false) :
    (step c s).state.card =
      { s.card with memory := (Operation.carry s.card.memory (c.request s)).2 } := by
  have heffect := congrArg Prod.snd (effect_perform h.memory hc)
  exact heffect

/-- Whether a command that is not a restoration succeeds. -/
theorem Sound.result_step {s : Session μ} (h : s.Sound) {c : Command μ} (hc : c.isRestore = false) :
    (step c s).result.map (fun _ => ()) = (Operation.carry s.card.memory (c.request s)).1 := by
  have heffect := congrArg Prod.fst (effect_perform h.memory hc)
  exact heffect

/-- A restoration leaves the card as it is, or powers a card up from an image. -/
theorem card_restored (c : Config) (bytes : List UInt8) (card : Card) :
    ((Card.restore c bytes).exec card).2 = card ∨ c.validate = .ok () ∧ ∃ image m,
      Image.powerUp c image = .ok m ∧ ((Card.restore c bytes).exec card).2 = ⟨c, m⟩ := by
  unfold Act.exec Card.restore
  dsimp only
  split
  · exact .inl rfl
  next hvalid =>
    split
    · exact .inl rfl
    next image _ =>
      rcases hm : Image.powerUp c image with e | m
      · exact .inl rfl
      · exact .inr ⟨hvalid, image, m, hm, rfl⟩

/-- Every command keeps the session invariant. -/
theorem Sound.step {s : Session μ} (h : s.Sound) (c : Command μ) :
    (Session.step c s).state.Sound := by
  rcases hc : c.isRestore with _ | _
  · have hcard := h.card_step hc
    rcases hr : c.request s with e | ops
    · rw [hr, Operation.carry_error] at hcard
      exact ⟨by rw [hcard]; exact h.config, by rw [hcard]; exact h.memory,
        by rw [hcard]; exact h.settled⟩
    · rw [hr, Operation.carry_ok] at hcard
      obtain ⟨hsound, hsettled⟩ := Operation.sound_run h.memory h.settled ops
      exact ⟨by rw [hcard]; exact h.config, by rw [hcard]; exact hsound,
        by rw [hcard]; exact hsettled⟩
  · cases c
    case restore config bytes =>
      have hcard := card_restored config bytes s.card
      rw [← card_step_restore] at hcard
      rcases hcard with hsame | ⟨hvalid, image, m, hm, hup⟩
      · exact ⟨by rw [hsame]; exact h.config, by rw [hsame]; exact h.memory,
          by rw [hsame]; exact h.settled⟩
      · exact ⟨by rw [hup]; exact hvalid, by rw [hup]; exact Image.sound_powerUp hm,
          by rw [hup]; exact Image.settled_powerUp hm⟩
    all_goals cases hc

theorem Reachable.sound {s : Session μ} (h : Reachable s) : s.Sound := by
  induction h with
  | start hnew => exact sound_start hnew
  | step c _ ih => exact ih.step c

theorem Reachable.run {s : Session μ} (h : Reachable s) (cs : List (Command μ)) :
    Reachable (Session.run s cs).2 := by
  induction cs generalizing s with
  | nil => exact h
  | cons c more ih => exact ih (h.step c)

/-- The session of a new card with the default configuration. -/
def fresh : Session ConstantScore := .start (.blank {})

theorem reachable_fresh : Reachable fresh := .start (c := {}) rfl

end Session

end SmartCard
