-- SUMMARY: References are handed out once, in ascending order, and what is behind a reference never changes.
import SmartCard.Proofs.Session.Allocation
import SmartCard.Proofs.Session.Histories

/-!
# References in a session

As long as no other card takes its place, a card keeps all of its arrays, and each new one gets a
reference beyond those of all others. A card that is restored from its own image counts as the same
card, in the middle of a transaction, too. The last reference there is can be reached through an
image only; a card that has it makes no array any more.
-/

namespace SmartCard

variable {μ : Type} {d : Descriptor}

/-- Whether a command puts another card in the place of the card at hand: it succeeds in restoring
one from an image that is not the present one. -/
def Command.Replaces (s : Session μ) : Command μ → Prop
  | .restore config bytes =>
    bytes ≠ s.card.image ∧ ((Card.restore config bytes).exec s.card).1 = .ok ()
  | _ => False

/-- An array whose reference is looked for is not there yet. -/
theorem Store.Sound.freeRef_ne_inUse {c : Config} {s : Store} (h : s.Sound c) (array : ArrayRef) :
    s.freeRef ≠ .error (.referenceInUse array) := by
  unfold Store.freeRef
  rcases hnext : s.next with _ | id
  · nofun
  · dsimp only
    rw [(h.next_free hnext).1]
    nofun

namespace Session

variable [Matcher μ] {s₀ s : Session μ} {command : Command μ} {past : List (Session μ)}

/-- A restoration that leaves the card in its place leaves it as it is, or as after a recovery. -/
theorem Sound.restored_of_place (h : s.Sound) (hrestore : command.isRestore = true)
    (hplace : ¬command.Replaces s) :
    (Session.step command s).state.card = s.card ∨
      (Session.step command s).state.card.memory.store.table =
          s.card.memory.recovered.store.table ∧
        (Session.step command s).state.card.memory.transaction.log.entries = [] := by
  cases command
  case restore config bytes =>
    rw [card_step_restore]
    rcases card_restored config bytes s.card with hsame | ⟨_, _, m, hm, hup⟩
    · exact .inl hsame
    · rcases hok : ((Card.restore config bytes).exec s.card).1 with e | _
      · exact .inl (card_of_restore_error hok)
      · obtain rfl : bytes = s.card.image := by
          by_contra hother
          exact hplace ⟨hother, hok⟩
        refine .inr ⟨Card.table_restored h.memory hok, ?_⟩
        obtain ⟨_, _, _, _, _, rfl⟩ := Image.powerUp_eq_ok_iff.mp hm
        rw [hup]
        rfl
  all_goals cases hrestore

/-- And so it leaves it with its arrays. -/
theorem Sound.descriptor?_restore (h : s.Sound) (hrestore : command.isRestore = true)
    (hplace : ¬command.Replaces s) :
    (Session.step command s).state.card.memory.store.descriptor? =
      s.card.memory.store.descriptor? := by
  rcases h.restored_of_place hrestore hplace with hsame | ⟨htable, _⟩
  · rw [hsame]
  · show Table.descriptor? _ = _
    rw [htable]
    exact h.memory.descriptor?_recovered

/-- Only a command that is to make an array changes which arrays there are. -/
theorem Sound.descriptor?_step_of_not_makes (h : s.Sound) (hplace : ¬command.Replaces s)
    (hnone : ∀ d, ¬command.Makes s.card.config d) :
    (Session.step command s).state.card.memory.store.descriptor? =
      s.card.memory.store.descriptor? := by
  rcases hallocates : command.allocates with _ | _
  · rcases hrestore : command.isRestore with _ | _
    · exact h.descriptor?_step_of_not_allocates hrestore hallocates
    · exact h.descriptor?_restore hrestore hplace
  · rw [(h.refused_of_not_makes hallocates hnone).2]

/-- Arrays stay, and stay what they are. -/
theorem Sound.keeps_step_of_place (h : s.Sound) (hplace : ¬command.Replaces s) :
    s.card.memory.store.Keeps (Session.step command s).state.card.memory.store := by
  rcases hrestore : command.isRestore with _ | _
  · exact h.keeps_step hrestore
  · exact Store.keeps_of_eq (h.descriptor?_restore hrestore hplace)

/-- A run of one card keeps the invariant and every array. -/
theorem Leads.keeps (hleads : Leads (fun _ s c => ¬c.Replaces s) s₀ past s) (h : s₀.Sound) :
    s.Sound ∧ s₀.card.memory.store.Keeps s.card.memory.store := by
  induction hleads with
  | here => exact ⟨h, .refl _⟩
  | step c _ hplace ih =>
    obtain ⟨hsound, hkeeps⟩ := ih
    exact ⟨hsound.step c, hkeeps.trans (hsound.keeps_step_of_place hplace)⟩

/-- References are never used again, and what is behind them never changes. In any run of one card
every array stays what it was made as, and has a payload of the size that goes with it. A command
for an array that the card has room for makes it, with a reference that is not null and beyond all
others on the card, so that it is never found in use already. Otherwise it fails, and the card is as
before, with the next reference; and so it does, for want of a reference, if the last one there is
belongs to an array. Neither a command that is not acceptable nor any other makes an array. -/
theorem references_law (hreachable : Reachable s₀)
    (hleads : Leads (fun _ s c => ¬c.Replaces s) s₀ past s) :
    (∀ array d, s₀.card.memory.store.descriptor? array = some d →
      s.card.memory.store.descriptor? array = some d) ∧
    (∀ array cell, s.card.memory.store.table.find? array = some cell →
      array ≠ .null ∧ cell.descriptor.length ≤ 32767 ∧
        cell.payload.length = cell.descriptor.length * cell.descriptor.kind.width) ∧
    (∀ array, s.card.memory.store.freeRef ≠ .error (.referenceInUse array)) ∧
    Fault.referencesExhausted.reason = some (.system .noResource) ∧
    (∀ (command : Command μ) d, command.Makes s.card.config d →
      (s.card.memory.store.Exhausted →
        (step command s).result = .error .referencesExhausted ∧
          (step command s).state.card = s.card) ∧
      (s.card.memory.store.Admits s.card.config d →
        ∃ array, command.Answers s array (step command s).result ∧ array ≠ .null ∧
          (∀ other, s.card.memory.store.descriptor? other ≠ none → other.id < array.id) ∧
          ∀ other, (step command s).state.card.memory.store.descriptor? other =
            if other = array then some d else s.card.memory.store.descriptor? other) ∧
      (¬s.card.memory.store.Admits s.card.config d →
        (∃ e, (step command s).result = .error e) ∧ (step command s).state.card = s.card)) ∧
    (∀ command : Command μ, command.allocates = true →
      (∀ d, ¬command.Makes s.card.config d) →
        (∃ e, (step command s).result = .error e) ∧ (step command s).state.card = s.card) ∧
    (∀ command : Command μ, ¬command.Replaces s → (∀ d, ¬command.Makes s.card.config d) →
      (step command s).state.card.memory.store.descriptor? = s.card.memory.store.descriptor?) := by
  obtain ⟨h, hkeeps⟩ := hleads.keeps hreachable.sound
  refine ⟨hkeeps, fun array cell hfound => ⟨?_, ?_, ?_⟩, h.memory.store.freeRef_ne_inUse, rfl,
    fun _ _ hmakes => ⟨h.refused_of_exhausted hmakes, fun hadmits => ?_,
      h.refused_of_not_admits hmakes⟩,
    fun _ hallocates hnone => h.refused_of_not_makes hallocates hnone,
    fun _ hplace hnone => h.descriptor?_step_of_not_makes hplace hnone⟩
  · rintro rfl
    rw [h.memory.store.null_free] at hfound
    cases hfound
  · exact (h.memory.store.cells hfound).length_le
  · exact (h.memory.store.cells hfound).size
  · obtain ⟨array, hanswers, hadds⟩ := h.made_of_admits hmakes hadmits
    exact ⟨array, hanswers, hadds.nonnull, hadds.beyond, hadds.descriptor⟩

/-- An image with an array under the last reference there is. -/
def lastTaken : Image := ⟨1, [⟨.last, 2, 1, 0, false, none, [7]⟩], []⟩

/-- The session of a card that was restored from this image. -/
def exhausted : Session ConstantScore := (step (.restore {} lastTaken.encode) fresh).state

/-- The session in a transaction, with a write to the array. -/
def rewriting : Session ConstantScore :=
  (step (.setElement .last 0 5) (step .begin exhausted).state).state

/-- The session after the card was restored from its own image in the middle of the transaction. -/
def poweredUp : Session ConstantScore := (step (.restore {} rewriting.card.image) rewriting).state

/-- The card still has its array, and makes no other. -/
theorem references_law_resumed :
    poweredUp.card.memory.store.descriptor? .last = some ⟨.byte, 1, .persistent, false⟩ ∧
      (step (.makeTransient .byte 0 1) poweredUp).result = .error .referencesExhausted := by
  have hreachable : exhausted.Reachable := reachable_fresh.step _
  have hd : exhausted.card.memory.store.descriptor? .last =
      some ⟨.byte, 1, .persistent, false⟩ := by decide +kernel
  have hwritten : Leads (fun _ s c => ¬c.Replaces s) exhausted
      [(step .begin exhausted).state, exhausted] rewriting :=
    .step (.setElement .last 0 5) (.step .begin .here id) id
  have hleads : Leads (fun _ s c => ¬c.Replaces s) exhausted
      [rewriting, (step .begin exhausted).state, exhausted] poweredUp :=
    .step (.restore {} rewriting.card.image) hwritten fun hreplaces => hreplaces.1 rfl
  obtain ⟨hkeeps, _, _, _, hmakes, _⟩ := references_law hreachable hleads
  have hlast := hkeeps .last _ hd
  have hexhausted : poweredUp.card.memory.store.Exhausted := by
    rw [Store.Exhausted, hlast]
    nofun
  exact ⟨hlast, ((hmakes (.makeTransient .byte 0 1) _ (.transient rfl rfl rfl)).1 hexhausted).1⟩

end Session

end SmartCard
