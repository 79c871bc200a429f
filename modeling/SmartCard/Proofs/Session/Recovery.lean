-- SUMMARY: Restoring from an image, resetting and recovering after a loss of power agree.
import SmartCard.Proofs.Image.Capture
import SmartCard.Proofs.Image.RoundTrip
import SmartCard.Proofs.Session.Rollback

/-!
# Ways back to a card at rest

A card comes to rest in three ways: it is reset, it loses power and recovers, or its image is taken
and a card is powered up from that. All three end in the same memory, whenever they happen: between
commands, with a transaction open or not, and within a command, even right after a tear has cut a
write short.
-/

namespace SmartCard

variable {c : Config} {m : Memory}

namespace Memory

/-- A reset keeps the tear that a loss of power disarms. Nothing else tells the two apart. -/
theorem Sound.wasReset_eq (h : m.Sound c) :
    m.wasReset = { m.recovered with store := { m.recovered.store with tear := m.store.tear } } := by
  have htear : m.undone.tear = m.store.tear := h.restored.tear
  unfold Memory.wasReset Memory.recovered
  rw [← htear]
  rfl

end Memory

/-- Restoring a card from the image of a sound memory. -/
theorem Card.exec_restore_capture (hvalid : c.validate = .ok ()) (h : m.Sound c)
    (hsize : (Image.capture m).encode.length ≤ Image.maxBytes) (card : Card) :
    (restore c (Image.capture m).encode).exec card = (.ok (), ⟨c, m.recovered⟩) := by
  unfold Act.exec restore
  simp only [hvalid, Image.ofBytes_encode hsize, Image.powerUp_capture h]

namespace Session

variable {μ : Type} [Matcher μ] {s : Session μ}

/-- The memories that a session goes through: between commands, before each operation of a command,
and for a write also when it is handed to the store, and when the store has taken its bytes or those
that a tear let through. -/
inductive GoesThrough (s : Session μ) : Memory → Prop where
  | between : GoesThrough s s.card.memory
  | before {c : Command μ} {m : Memory} {op : Operation} :
      (m, op) ∈ commandTrace s c → GoesThrough s m
  | issued {c : Command μ} {m m' : Memory} {w : Write} :
      (m, .write w) ∈ commandTrace s c → w.issued m = .ok m' → GoesThrough s m'
  | stored {c : Command μ} {m m' : Memory} {w : Write} :
      (m, .write w) ∈ commandTrace s c → w.issued m = .ok m' → GoesThrough s (w.stored m')

theorem Sound.mem_commandTrace (h : s.Sound) {c : Command μ} {op : Operation}
    (hmem : (m, op) ∈ commandTrace s c) : m.Sound s.card.config := by
  unfold commandTrace at hmem
  split at hmem
  · exact (Operation.sound_trace h.memory h.settled hmem).1
  · cases hmem

theorem Sound.goesThrough (h : s.Sound) (hm : s.GoesThrough m) : m.Sound s.card.config := by
  cases hm with
  | between => exact h.memory
  | before hmem => exact h.mem_commandTrace hmem
  | issued hmem hissued => exact Write.sound_issued (h.mem_commandTrace hmem) hissued
  | stored hmem hissued =>
    exact Write.sound_stored (Write.sound_issued (h.mem_commandTrace hmem) hissued)

/-- The ways back agree. Whatever memory a session goes through, there is one memory at rest that a
card gets when it is restored from the image, that a recovery after a loss of power leaves, and that
a reset leaves but for the tear, which it does not disarm. An image taken at rest and the image of
the restored card are the same bytes. -/
theorem recoveries_agree (hreachable : s.Reachable) (hm : s.GoesThrough m)
    (hsize : (Image.capture m).encode.length ≤ Image.maxBytes) :
    ∃ r : Memory,
      (∀ card, (Card.restore s.card.config (Image.capture m).encode).exec card =
        (.ok (), ⟨s.card.config, r⟩)) ∧
      Memory.recover.exec m = (.ok (), r) ∧
      (∃ cleared, Memory.reset.exec m =
        (.ok cleared, { r with store := { r.store with tear := m.store.tear } })) ∧
      r.transaction = .idle s.card.config ∧ r.store.tear = none ∧
      (m.transaction.isIdle = true → (Image.capture r).encode = (Image.capture m).encode) := by
  have hsound := hreachable.sound.goesThrough hm
  refine ⟨m.recovered, ?_, hsound.exec_recover, ?_, ?_, ?_, ?_⟩
  · exact Card.exec_restore_capture hreachable.sound.config hsound hsize
  · exact ⟨_, by rw [hsound.exec_reset, hsound.wasReset_eq]⟩
  · exact hsound.close_eq
  · rfl
  · intro hidle
    rw [Image.capture_recovered hsound hidle]

/-- A transaction with one logged write, and a tear ahead. -/
def beforeTear : Session ConstantScore :=
  (run fresh [.makePersistent .byte 4, .begin, .setElement ⟨1⟩ 0 3, .injectPowerLoss 1]).2

/-- Two bytes written past the transaction, of which a tear lets only the first through. -/
def tornWrite : Write := ⟨.direct, ⟨1⟩, 2, [3, 0]⟩

/-- In a memory with an open transaction and half a write, the ways back agree. -/
theorem recoveries_agree_tornWrite : ∃ r : Memory,
    (∀ card,
      (Card.restore {} (Image.capture (tornWrite.stored beforeTear.card.memory)).encode).exec card =
      (.ok (), ⟨{}, r⟩)) ∧
    Memory.recover.exec (tornWrite.stored beforeTear.card.memory) = (.ok (), r) := by
  have hmem : (beforeTear.card.memory, .write tornWrite) ∈
      commandTrace beforeTear (.copy .nonAtomic ⟨1⟩ 0 2 ⟨1⟩ 2) := .head _
  have hsize : (Image.capture (tornWrite.stored beforeTear.card.memory)).encode.length ≤
    Image.maxBytes := by decide +kernel
  obtain ⟨r, hrestore, hrecover, _⟩ :=
    recoveries_agree (reachable_fresh.run _) (.stored (s := beforeTear) hmem rfl) hsize
  exact ⟨r, hrestore, hrecover⟩

end Session

end SmartCard
