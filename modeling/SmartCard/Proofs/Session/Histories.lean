-- SUMMARY: Runs in which the past decides what is allowed, among it restorations from images of the run itself.
import SmartCard.Proofs.Image.Adoption
import SmartCard.Proofs.Image.RoundTrip
import SmartCard.Proofs.Session.Lanes
import SmartCard.Proofs.Session.Rollback

/-!
# Histories

A history is a run together with the sessions that it went through. What may be done next can then
depend on them (`Session.Leads`): a card may be restored from an image of any session of the run,
and from no other (`Command.RestoresFrom`). Such a restoration brings back the arrays that the
session in question would have had after a recovery (`Card.table_restored`).
-/

namespace SmartCard

variable {μ : Type}

/-- Whether a command restores nothing, or else the image of one of the sessions. -/
def Command.RestoresFrom (sessions : List (Session μ)) : Command μ → Prop
  | .restore _ bytes => ∃ s ∈ sessions, bytes = s.card.image
  | _ => True

/-- A card is restored from the image of a card only if the bytes of that image can be read back. -/
theorem Card.ofBytes_image {config : Config} {p card : Card}
    (hok : ((restore config p.image).exec card).1 = .ok ()) :
    Image.ofBytes p.image = .ok (Image.capture p.memory) := by
  have hsize : p.image.length ≤ Image.maxBytes := by
    by_contra hlarge
    have hread : Image.ofBytes p.image = .error .imageTooLarge := if_pos (Nat.lt_of_not_le hlarge)
    unfold Act.exec restore at hok
    rw [hread] at hok
    dsimp only at hok
    split at hok <;> cases hok
  unfold Image.ofBytes
  rw [if_neg (Nat.not_lt.mpr hsize), image, Image.decode?_encode hsize]

/-- The card that comes up from the image of a card has the arrays that the latter has after a
recovery, whatever its configuration is. -/
theorem Card.table_restored {config : Config} {p card : Card} (h : p.memory.Sound p.config)
    (hok : ((restore config p.image).exec card).1 = .ok ()) :
    ((restore config p.image).exec card).2.memory.store.table =
      p.memory.recovered.store.table := by
  have hread := ofBytes_image hok
  unfold Act.exec restore at hok ⊢
  rw [hread] at hok ⊢
  rcases hvalid : config.validate with e | _
  · rw [hvalid] at hok
    cases hok
  · rw [hvalid] at hok
    rcases hm : Image.powerUp config (Image.capture p.memory) with e | m
    · simp only [hm] at hok
      cases hok
    · simp only [hm]
      exact Image.table_powerUp_capture h hm

namespace Session

variable [Matcher μ]

/-- Commands lead from one session to another, each of them allowed by the sessions before it, of
which the newest comes first, and by the session at hand. -/
inductive Leads (P : List (Session μ) → Session μ → Command μ → Prop) (s₀ : Session μ) :
    List (Session μ) → Session μ → Prop where
  | here : Leads P s₀ [] s₀
  | step {past : List (Session μ)} {s : Session μ} (c : Command μ) :
      Leads P s₀ past s → P past s c → Leads P s₀ (s :: past) (Session.step c s).state

variable {P : List (Session μ) → Session μ → Command μ → Prop} {s₀ s : Session μ}
  {past : List (Session μ)}

namespace Leads

/-- What holds at first, and after a command if it has held up to then, holds all along. -/
theorem all {I : Session μ → Prop} (h : Leads P s₀ past s) (hstart : I s₀)
    (hstep : ∀ {past s} c, (∀ p ∈ s :: past, I p) → P past s c → I (Session.step c s).state) :
    ∀ p ∈ s :: past, I p := by
  induction h with
  | here =>
    intro p hmem
    rw [List.mem_singleton.mp hmem]
    exact hstart
  | step c _ hp ih =>
    intro p hmem
    rcases List.mem_cons.mp hmem with rfl | hmem
    · exact hstep c ih hp
    · exact ih p hmem

theorem reachable (h : Leads P s₀ past s) (hstart : Reachable s₀) : ∀ p ∈ s :: past, Reachable p :=
  h.all hstart fun c hpast _ => (hpast _ (.head _)).step c

end Leads

/-! ## What commands do to arrays -/

variable {command : Command μ} {sessions : List (Session μ)}

/-- An array stays on a card that is restored from no image without it. -/
theorem Sound.descriptor?_step (h : s.Sound) {array : ArrayRef} {d : Descriptor}
    (hd : s.card.memory.store.descriptor? array = some d) (hfrom : command.RestoresFrom sessions)
    (hsessions : ∀ p ∈ sessions, p.Sound ∧ p.card.memory.store.descriptor? array = some d) :
    (Session.step command s).state.card.memory.store.descriptor? array = some d := by
  rcases hrestore : command.isRestore with _ | _
  · exact h.keeps_step hrestore array d hd
  · cases command
    case restore config bytes =>
      obtain ⟨p, hp, rfl⟩ := hfrom
      obtain ⟨hsound, hd'⟩ := hsessions p hp
      rw [card_step_restore]
      rcases hok : ((Card.restore config p.card.image).exec s.card).1 with e | _
      · rw [card_of_restore_error hok]
        exact hd
      · show Table.descriptor? _ array = some d
        rw [Card.table_restored hsound.memory hok]
        exact (congrFun hsound.memory.descriptor?_recovered array).trans hd'
    all_goals cases hrestore

end Session

end SmartCard
