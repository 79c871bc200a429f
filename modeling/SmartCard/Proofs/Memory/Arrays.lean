-- SUMMARY: No operation makes an array disappear, or changes what it was made as.
import SmartCard.Proofs.Memory.Atomicity
import SmartCard.Proofs.Memory.InRange
import SmartCard.Proofs.Memory.Operations

/-!
# Arrays that stay

An array is made once and stays until the card is replaced. Its bytes may change, be rolled back or
be cleared, but its descriptor remains (`Store.Keeps`).
-/

namespace SmartCard

variable {c : Config} {m m' : Memory}

/-- Every array of a store is in another one, made as the same. -/
def Store.Keeps (s s' : Store) : Prop :=
  ∀ array d, s.descriptor? array = some d → s'.descriptor? array = some d

theorem Store.Keeps.refl (s : Store) : s.Keeps s := fun _ _ hd => hd

theorem Store.Keeps.trans {s₁ s₂ s₃ : Store} (h : s₁.Keeps s₂) (h' : s₂.Keeps s₃) : s₁.Keeps s₃ :=
  fun array d hd => h' array d (h array d hd)

theorem Store.keeps_of_eq {s s' : Store} (h : s'.descriptor? = s.descriptor?) : s.Keeps s' := by
  intro array d hd
  rw [h]
  exact hd

theorem Memory.Sound.descriptor?_recovered (h : m.Sound c) :
    m.recovered.store.descriptor? = m.store.descriptor? := by
  show Store.descriptor? (Store.clearTransients { m.undone with tear := none } _) = _
  rw [Store.descriptor?_clearTransients]
  exact h.descriptor?_undone

theorem Write.descriptor?_act (h : m.Sound c) (hs : m.Settled) (w : Write) :
    (w.act.exec m).2.store.descriptor? = m.store.descriptor? := by
  rw [exec_act h hs]
  rcases hissued : w.issued m with e | m'
  · unfold ending
    dsimp only
    split
    · exact h.descriptor?_undone
    · rfl
  · have hstored : (w.stored m').store.descriptor? = m.store.descriptor? := by
      rw [← store_issued hissued]
      exact Store.descriptor?_write _ _ _ _
    have hsound := sound_stored (w := w) (sound_issued h hissued)
    rw [ending, concluded]
    dsimp only
    rw [store_settled]
    rcases w.answer m' with e | _
    · dsimp only
      split
      · exact hsound.descriptor?_recovered.trans hstored
      · exact hstored
    · exact hstored

/-- Arrays come only from being made. -/
theorem Operation.descriptor?_act (h : m.Sound c) (hs : m.Settled) {op : Operation}
    (hop : ∀ d, op ≠ .allocate d) :
    (op.act.exec m).2.store.descriptor? = m.store.descriptor? := by
  cases op with
  | write w => exact Write.descriptor?_act h hs w
  | begin =>
    rw [act, Memory.exec_begin]
    split <;> rfl
  | commit =>
    rw [act, Memory.exec_commit]
    split <;> rfl
  | abort =>
    rw [act, h.exec_abort]
    split
    · rfl
    · exact h.descriptor?_undone
  | allocate d => exact absurd rfl (hop d)
  | reset =>
    rw [exec_reset h]
    show Store.descriptor? (Store.clearTransients m.undone _) = _
    rw [Store.descriptor?_clearTransients]
    exact h.descriptor?_undone
  | deselect => exact Store.descriptor?_clearTransients _ _
  | arm bytes => rfl
  | flip array byte mask =>
    rw [exec_flip]
    rcases hf : m.store.flipBits array byte mask with _ | s
    · rfl
    · exact Store.descriptor?_flipBits hf

/-- No operation makes an array disappear. -/
theorem Operation.keeps_act (h : m.Sound c) (hs : m.Settled) (op : Operation) :
    m.store.Keeps (op.act.exec m).2.store := by
  by_cases hallocates : ∃ d, op = .allocate d
  · obtain ⟨d, rfl⟩ := hallocates
    rw [exec_allocate]
    rcases hallocate : m.store.allocate d with _ | ⟨array, s⟩
    · exact .refl _
    · intro other d' hd'
      have hfree := Store.freeRef_eq_ok (Store.freeRef_of_allocate hallocate)
      have hne : other ≠ array := by
        rintro rfl
        rw [hfree] at hd'
        cases hd'
      dsimp only
      rw [h.store.descriptor?_allocate hallocate, if_neg hne]
      exact hd'
  · exact Store.keeps_of_eq (descriptor?_act h hs fun d heq => hallocates ⟨d, heq⟩)

theorem Operation.keeps_run (h : m.Sound c) (hs : m.Settled) (ops : List Operation) :
    m.store.Keeps (run m ops).2.store := by
  obtain ⟨⟨_, _, hend⟩, _⟩ := kept_run (P := fun m' => m.store.Keeps m'.store)
    (fun op _ _ h' hs' hkeeps => hkeeps.trans (keeps_act h' hs' op)) h hs (.refl _)
  exact hend

end SmartCard
